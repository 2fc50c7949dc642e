import EmojiPalette.Core.State
import EmojiPalette.Model.Catalog

/-!
# The list behind the grid

What the grid lists: the result of a search, or the records of a category. The list is built anew whenever one of them changes. A `QString` stands here as its UTF-8.
-/

namespace EmojiPalette

namespace Ui

structure EmojiListModel where
  category : Category
  locale : Locale
  query : Bytes
  records : List EmojiRecord

namespace EmojiListModel

/-- The most results of a search that are listed. -/
def maximumResults : Nat := 500

def listed (catalog : EmojiCatalog) (state : PersistentState) (category : Category) (locale : Locale)
    (query : Bytes) : List EmojiRecord :=
  if !query.isEmpty then (catalog.search query locale maximumResults).map (·.emoji)
  else match category with
    | .recentlyUsed => state.recents.filterMap fun recent => catalog.find recent.sequence
    | .favorites => state.favorites.filterMap catalog.find
    | category => catalog.records.filter fun record => record.category = category

def rebuild (catalog : EmojiCatalog) (state : PersistentState) (model : EmojiListModel) : EmojiListModel :=
  { model with records := listed catalog state model.category model.locale model.query }

def initial (catalog : EmojiCatalog) (state : PersistentState) : EmojiListModel :=
  rebuild catalog state ⟨.smileysEmotion, .english, [], []⟩

/-- The rebuilt list, or nothing if the category stays. -/
def setCategory (catalog : EmojiCatalog) (state : PersistentState) (category : Category) (model : EmojiListModel) :
    Option EmojiListModel :=
  if model.category = category && model.query.isEmpty then none
  else some (rebuild catalog state { model with category := category })

/-- The rebuilt list, or nothing if the search stays. -/
def setSearch (catalog : EmojiCatalog) (state : PersistentState) (query : Bytes) (locale : Locale)
    (model : EmojiListModel) : Option EmojiListModel :=
  if model.query = query && model.locale = locale then none
  else some (rebuild catalog state { model with query := query, locale := locale })

def rowCount (model : EmojiListModel) : Nat := model.records.length

def record (row : Nat) (model : EmojiListModel) : Option EmojiRecord := model.records[row]?

/-- Whatever is listed is a record of the catalog. -/
theorem mem_records_of_listed {catalog : EmojiCatalog} {state : PersistentState} {category : Category} {locale : Locale}
    {query : Bytes} {record : EmojiRecord} (h : record ∈ listed catalog state category locale query) :
    record ∈ catalog.records := by
  have hfind : ∀ {sequence : Bytes}, catalog.find sequence = some record → record ∈ catalog.records :=
    fun hfound => (EmojiCatalog.sequence_of_find hfound).1
  unfold listed at h
  split at h
  · obtain ⟨result, hresult, rfl⟩ := List.mem_map.mp h
    exact EmojiCatalog.mem_records_of_search hresult
  split at h
  · obtain ⟨recent, _, hrecent⟩ := List.mem_filterMap.mp h
    exact hfind hrecent
  · obtain ⟨favorite, _, hfavorite⟩ := List.mem_filterMap.mp h
    exact hfind hfavorite
  · exact List.mem_of_mem_filter h

end EmojiListModel

end Ui

end EmojiPalette
