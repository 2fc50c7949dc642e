import Mathlib.Data.Fintype.Card
import EmojiPalette.Library.Ranking
import EmojiPalette.Model.Matching
import EmojiPalette.Model.QueryText

/-!
# The order of the results

A search that is no exact hit gives every record a total, drops the records with a token that does not match, and sorts the rest by their totals alone. Records are told apart by their places in the catalog, as the source tells them apart by their indices.
-/

namespace EmojiPalette

open Ranking

/-! ### Totals -/

def EmojiRecord.MatchesAll (record : EmojiRecord) (locale : Locale) (tokens : List Bytes) : Prop :=
  ∀ token ∈ tokens, 0 ≤ documentScore token record.searchDocument locale

instance (record : EmojiRecord) (locale : Locale) (tokens : List Bytes) : Decidable (record.MatchesAll locale tokens) :=
  inferInstanceAs (Decidable (∀ token ∈ tokens, _))

def EmojiRecord.scoreSum (record : EmojiRecord) (locale : Locale) (tokens : List Bytes) : Int :=
  (tokens.map fun token => documentScore token record.searchDocument locale).sum

private theorem foldlM_total_eq (score : Bytes → Int) (tokens : List Bytes) (total : Int) :
    (tokens.foldlM (fun total token => if score token < 0 then none else some (total + score token)) total) =
      if ∀ token ∈ tokens, 0 ≤ score token then some (total + (tokens.map score).sum) else none := by
  induction tokens generalizing total with
  | nil => simp
  | cons token rest ih =>
      rw [List.foldlM_cons]
      by_cases hfails : score token < 0
      · rw [if_pos hfails, if_neg fun hall => absurd (hall token List.mem_cons_self) (not_le.mpr hfails)]
        rfl
      · rw [if_neg hfails]
        simp only [Option.bind_eq_bind, Option.bind_some, ih, List.forall_mem_cons, not_lt.mp hfails, true_and,
          List.map_cons, List.sum_cons, add_assoc]

/-- The loop over the tokens gives up at the first that does not match, and adds up the scores if none is. -/
theorem totalScore_eq (tokens : List Bytes) (record : EmojiRecord) (locale : Locale) :
    totalScore tokens record.searchDocument locale =
      if record.MatchesAll locale tokens then some (record.scoreSum locale tokens) else none := by
  have hfold := foldlM_total_eq (fun token => documentScore token record.searchDocument locale) tokens 0
  rw [zero_add] at hfold
  exact hfold

/-! ### Bounds -/

theorem textScore_bounds (token text : Bytes) {exact : Int} (h : 600 ≤ exact) :
    -150 ≤ textScore token text exact ∧ textScore token text exact ≤ exact := by
  unfold textScore
  split_ifs <;> omega

theorem foldl_max_bounds {score : Bytes → Int} {low high : Int} {texts : List Bytes} {first : Int}
    (hfirst : low ≤ first ∧ first ≤ high) (h : ∀ text ∈ texts, score text ≤ high) :
    low ≤ texts.foldl (fun best text => max best (score text)) first ∧
      texts.foldl (fun best text => max best (score text)) first ≤ high := by
  induction texts generalizing first with
  | nil => exact hfirst
  | cons text rest ih =>
      obtain ⟨htext, hrest⟩ := List.forall_mem_cons.mp h
      exact ih ⟨le_max_of_le_left hfirst.1, max_le hfirst.2 htext⟩ hrest

theorem localeScore_bounds (token : Bytes) (document : SearchDocument) (locale : Locale) {name keyword : Int}
    (hname : 600 ≤ name) (hkeyword : 600 ≤ keyword) (hhigh : keyword ≤ name) :
    -150 ≤ localeScore token document locale name keyword ∧ localeScore token document locale name keyword ≤ name := by
  refine foldl_max_bounds (textScore_bounds token _ hname) fun text _ => ?_
  exact le_trans (textScore_bounds token text hkeyword).2 hhigh

theorem documentScore_bounds (token : Bytes) (document : SearchDocument) (locale : Locale) :
    -150 ≤ documentScore token document locale ∧ documentScore token document locale ≤ 1000 := by
  have hown := localeScore_bounds token document locale (by omega : (600 : Int) ≤ 1000) (by omega : (600 : Int) ≤ 700)
    (by omega)
  have henglish := localeScore_bounds token document .english (by omega : (600 : Int) ≤ 900)
    (by omega : (600 : Int) ≤ 600) (by omega)
  rw [documentScore]
  split
  · exact ⟨le_max_of_le_left hown.1, max_le hown.2 (by omega)⟩
  · exact hown

/-- Every token adds at most a thousand to a total. -/
theorem scoreSum_bounds {record : EmojiRecord} {locale : Locale} {tokens : List Bytes}
    (h : record.MatchesAll locale tokens) :
    0 ≤ record.scoreSum locale tokens ∧ record.scoreSum locale tokens ≤ 1000 * tokens.length := by
  induction tokens with
  | nil => simp [EmojiRecord.scoreSum]
  | cons token rest ih =>
      obtain ⟨htoken, hrest⟩ := List.forall_mem_cons.mp h
      obtain ⟨hlow, hhigh⟩ := ih hrest
      have hbound := (documentScore_bounds token record.searchDocument locale).2
      rw [EmojiRecord.scoreSum] at hlow hhigh ⊢
      rw [List.map_cons, List.sum_cons, List.length_cons]
      omega

theorem length_splitOn_le (value : Bytes) (delimiter : UInt8) : (value.splitOn delimiter).length ≤ value.length + 1 := by
  induction value with
  | nil => simp
  | cons first rest ih =>
      by_cases hdelimiter : first = delimiter
      · rw [hdelimiter, splitOn_cons_self, List.length_cons, List.length_cons]
        omega
      · obtain ⟨head, tail, hparts, hgrown⟩ := splitOn_cons_of_ne hdelimiter rest
        rw [hparts, List.length_cons] at ih
        rw [hgrown, List.length_cons, List.length_cons]
        omega

theorem length_queryTokens_le (query : Bytes) : (queryTokens query).length ≤ query.length + 1 := by
  have hparts := length_splitOn_le (normalizeForSearch query) 32
  have hkept : (queryTokens query).length ≤ ((normalizeForSearch query).splitOn 32).length := List.length_filter_le _ _
  have hnormal := length_normalizeForSearch_le query
  omega

/-! ### The ranking -/

private theorem filterMap_ite_eq {α β : Type} (keep : α → Prop) [DecidablePred keep] (make : α → β) (entries : List α) :
    (entries.filterMap fun entry => if keep entry then some (make entry) else none) =
      (entries.filter fun entry => keep entry).map make := by
  induction entries with
  | nil => rfl
  | cons entry rest ih =>
      rw [List.filterMap_cons, List.filter_cons]
      by_cases hkeep : keep entry
      · simp [hkeep, ih]
      · simp [hkeep, ih]

namespace EmojiCatalog

/-- The places of the records every token matches, in the order of the results. -/
def ranking (catalog : EmojiCatalog) (tokens : List Bytes) (locale : Locale) : List (Fin catalog.records.length) :=
  ((List.finRange catalog.records.length).filter fun index => catalog.records[index].MatchesAll locale tokens).insertionSort
    fun left right => catalog.records[left].scoreSum locale tokens ≥ catalog.records[right].scoreSum locale tokens

def resultAt (catalog : EmojiCatalog) (tokens : List Bytes) (locale : Locale) (index : Fin catalog.records.length) :
    SearchResult :=
  ⟨catalog.records[index], catalog.records[index].scoreSum locale tokens⟩

theorem candidates_eq (catalog : EmojiCatalog) (tokens : List Bytes) (locale : Locale) :
    catalog.candidates tokens locale = (catalog.ranking tokens locale).map (catalog.resultAt tokens locale) := by
  have hrecords : (List.finRange catalog.records.length).map (fun index => catalog.records[index]) = catalog.records :=
    List.map_getElem_finRange catalog.records
  have hmatching : (catalog.records.filterMap fun record =>
        (totalScore tokens record.searchDocument locale).map fun score => SearchResult.mk record score) =
      ((List.finRange catalog.records.length).filter fun index => catalog.records[index].MatchesAll locale tokens).map
        (catalog.resultAt tokens locale) := by
    conv_lhs => rw [← hrecords, List.filterMap_map]
    rw [← filterMap_ite_eq]
    refine List.filterMap_congr fun index _ => ?_
    rw [Function.comp_apply, totalScore_eq, apply_ite (Option.map _), Option.map_some, Option.map_none]
    rfl
  have hsorted := List.map_insertionSort
    (fun left right : Fin catalog.records.length =>
      catalog.records[left].scoreSum locale tokens ≥ catalog.records[right].scoreSum locale tokens)
    (fun left right : SearchResult => left.score ≥ right.score) (catalog.resultAt tokens locale)
  rw [candidates, hmatching, ranking]
  exact (hsorted _ fun left _ right _ => Iff.rfl).symm

theorem nodup_ranking (catalog : EmojiCatalog) (tokens : List Bytes) (locale : Locale) :
    (catalog.ranking tokens locale).Nodup :=
  (List.perm_insertionSort _ _).nodup_iff.mpr ((List.nodup_finRange _).filter _)

theorem mem_ranking_iff {catalog : EmojiCatalog} {tokens : List Bytes} {locale : Locale}
    {index : Fin catalog.records.length} :
    index ∈ catalog.ranking tokens locale ↔ catalog.records[index].MatchesAll locale tokens := by
  rw [ranking, List.mem_insertionSort, List.mem_filter, decide_eq_true_iff]
  exact and_iff_right (List.mem_finRange index)

theorem pairwise_ranking (catalog : EmojiCatalog) (tokens : List Bytes) (locale : Locale) :
    (catalog.ranking tokens locale).Pairwise
      (ByScore (fun index => catalog.records[index].scoreSum locale tokens) fun left right => left < right) := by
  refine pairwise_insertionSort (List.Pairwise.filter _ ?_)
  exact List.pairwise_lt_finRange _

/-- A higher limit only adds results at the end. -/
theorem search_isPrefix (catalog : EmojiCatalog) (query : Bytes) (locale : Locale) {fewer more : Nat}
    (h : fewer ≤ more) : catalog.search query locale fewer <+: catalog.search query locale more := by
  by_cases hnone : normalizeForSearch query = [] ∨ fewer = 0
  · rw [catalog.search_eq_nil locale hnone]
    exact List.nil_prefix
  rw [not_or] at hnone
  cases hfind : catalog.find query with
  | none =>
      rw [search_of_find_eq_none hnone.1 hfind, search_of_find_eq_none hnone.1 hfind]
      exact List.take_prefix_take_left h
  | some record =>
      rw [search_of_find_eq_some hnone.1 hfind locale hnone.2,
        search_of_find_eq_some hnone.1 hfind locale (by omega : more ≠ 0)]

/-- The results of a search that is no exact hit are the first of one ranking: the places of the records every token matches, each once, by their totals and then by the catalog; and no total of a query that can be sent leaves the range of `int`. A limit only cuts the results off. -/
theorem search_ranks (catalog : EmojiCatalog) (query : Bytes) (locale : Locale) (hlength : query.length ≤ 256)
    (hnormal : normalizeForSearch query ≠ []) :
    let tokens := queryTokens query
    let total := fun index : Fin catalog.records.length =>
      (tokens.map fun token => documentScore token catalog.records[index].searchDocument locale).sum
    (catalog.contains query = false →
      ∃ ranking : List (Fin catalog.records.length), ranking.Nodup ∧
        (∀ index, index ∈ ranking ↔
          ∀ token ∈ tokens, 0 ≤ documentScore token catalog.records[index].searchDocument locale) ∧
        ranking.Pairwise (fun left right => total right < total left ∨ (total left = total right ∧ left < right)) ∧
        ∀ limit, catalog.search query locale limit =
          (ranking.take limit).map fun index => ⟨catalog.records[index], total index⟩) ∧
    (∀ record ∈ catalog.records,
      (∀ token, -2 ^ 31 ≤ documentScore token record.searchDocument locale ∧
        documentScore token record.searchDocument locale < 2 ^ 31) ∧
      ∀ part sum, part <+: tokens → totalScore part record.searchDocument locale = some sum →
        0 ≤ sum ∧ sum < 2 ^ 31) ∧
    (∀ fewer more, fewer ≤ more → catalog.search query locale fewer <+: catalog.search query locale more) := by
  refine ⟨fun hsequence => ?_, fun record _ => ⟨fun token => ?_, ?_⟩,
    fun fewer more => search_isPrefix catalog query locale⟩
  · have hfind : catalog.find query = none := by simpa [contains] using hsequence
    refine ⟨catalog.ranking (queryTokens query) locale, nodup_ranking catalog _ locale, fun index => mem_ranking_iff,
      pairwise_ranking catalog _ locale, fun limit => ?_⟩
    rw [search_of_find_eq_none hnormal hfind, candidates_eq, List.map_take]
    rfl
  · have hbounds := documentScore_bounds token record.searchDocument locale
    omega
  · intro part sum hpart hsum
    rw [totalScore_eq] at hsum
    by_cases hmatches : record.MatchesAll locale part
    · rw [if_pos hmatches] at hsum
      obtain ⟨hlow, hhigh⟩ := scoreSum_bounds hmatches
      have htokens := length_queryTokens_le query
      have hshort := hpart.length_le
      obtain rfl := Option.some.inj hsum
      omega
    · rw [if_neg hmatches] at hsum
      cases hsum

/-- A record with the sequence, the name and the keyword. -/
def withName (last : UInt8) (name keyword : Bytes) : EmojiRecord :=
  ⟨[240, 159, 152, last], .smileysEmotion, [], fun _ => ⟨name, [keyword]⟩, []⟩

/-- "sad face", "face", "red face", "cat" and "mask", the last with the keyword "face". -/
def faces : EmojiCatalog :=
  ⟨[withName 1 [115, 97, 100, 32, 102, 97, 99, 101] [116, 101, 97, 114], withName 2 [102, 97, 99, 101] [104, 101, 97, 100],
    withName 3 [114, 101, 100, 32, 102, 97, 99, 101] [104, 111, 116], withName 4 [99, 97, 116] [112, 101, 116],
    withName 5 [109, 97, 115, 107] [102, 97, 99, 101]]⟩

/-- "face" finds the record of that name first, then two that tie, in the order of the catalog, and last the keyword. Every limit cuts this list off. -/
theorem search_ranks_faces :
    (∀ limit, (faces.search [102, 97, 99, 101] .english limit).map (fun result => (result.emoji.sequence, result.score)) =
      [([240, 159, 152, 2], 1000), ([240, 159, 152, 1], 750), ([240, 159, 152, 3], 750),
        ([240, 159, 152, 5], 700)].take limit) ∧
      faces.search [102, 97, 99, 101] .english 2 <+: faces.search [102, 97, 99, 101] .english 5 := by
  obtain ⟨hranked, -, hprefix⟩ := search_ranks faces [102, 97, 99, 101] .english (by decide) (by decide +kernel)
  obtain ⟨ranking, hnodup, -, -, hlimit⟩ := hranked (by decide +kernel)
  have hshort : ranking.length ≤ 5 := by simpa [faces] using hnodup.length_le_card
  refine ⟨fun limit => ?_, hprefix 2 5 (by decide)⟩
  have hall := hlimit 5
  rw [List.take_of_length_le hshort] at hall
  have hfive : (faces.search [102, 97, 99, 101] .english 5).map (fun result => (result.emoji.sequence, result.score)) =
      [([240, 159, 152, 2], 1000), ([240, 159, 152, 1], 750), ([240, 159, 152, 3], 750), ([240, 159, 152, 5], 700)] := by
    decide +kernel
  rw [hlimit limit, List.map_take, ← hall, List.map_take, hfive]

/-! ### Queries with one normal form

The exact hit is looked up with the query as it was typed, before anything is normalized. A query with a hyphen more has the same tokens and is no sequence.
-/

/-- The tokens lead to the exact hit as well, with its score, and to nothing beside it. -/
def ExactAgrees (catalog : EmojiCatalog) (query : Bytes) (locale : Locale) (limit : Nat) : Prop :=
  ∀ record, catalog.find query = some record →
    ∃ place : Fin catalog.records.length, catalog.records[place] = record ∧
      record.MatchesAll locale (queryTokens query) ∧ record.scoreSum locale (queryTokens query) = 10000 ∧
      ∀ other : Fin catalog.records.length, other ≠ place →
        catalog.records[other].MatchesAll locale (queryTokens query) →
        limit = 1 ∧ (catalog.records[other].scoreSum locale (queryTokens query) < 10000 ∨
          (catalog.records[other].scoreSum locale (queryTokens query) = 10000 ∧ place < other))

/-- A limit cuts a list down to its first element, or there is no other. -/
theorem take_eq_singleton_iff {α : Type} {entries : List α} {entry : α} {limit : Nat} (h : limit ≠ 0) :
    entries.take limit = [entry] ↔ ∃ rest, entries = entry :: rest ∧ (rest = [] ∨ limit = 1) := by
  obtain ⟨limit, rfl⟩ := Nat.exists_eq_succ_of_ne_zero h
  cases entries with
  | nil => simp
  | cons first rest =>
      rw [List.take_succ_cons, List.cons.injEq, List.take_eq_nil_iff]
      constructor
      · rintro ⟨rfl, hrest⟩
        exact ⟨rest, rfl, hrest.elim (fun hlimit => Or.inr (by omega)) Or.inl⟩
      · rintro ⟨others, hcons, hothers⟩
        obtain ⟨rfl, rfl⟩ := List.cons.inj hcons
        exact ⟨rfl, hothers.elim Or.inr fun hlimit => Or.inl (by omega)⟩

/-- In terms of the search: the tokens alone give what the exact hit gives. -/
theorem exactAgrees_iff {catalog : EmojiCatalog} {query : Bytes} {locale : Locale} {limit : Nat} (h : limit ≠ 0) :
    catalog.ExactAgrees query locale limit ↔ ∀ record, catalog.find query = some record →
      (catalog.candidates (queryTokens query) locale).take limit = [⟨record, 10000⟩] := by
  refine forall₂_congr fun record _ => ?_
  have hpairwise := pairwise_ranking catalog (queryTokens query) locale
  have hnodup := nodup_ranking catalog (queryTokens query) locale
  have hmatches : ∀ {index}, catalog.records[index].MatchesAll locale (queryTokens query) ↔
      index ∈ catalog.ranking (queryTokens query) locale := mem_ranking_iff.symm
  rw [candidates_eq, take_eq_singleton_iff h]
  constructor
  · intro hplace
    obtain ⟨place, rfl, hmatch, htotal, hothers⟩ := hplace
    cases hranking : catalog.ranking (queryTokens query) locale with
    | nil =>
        rw [hmatches, hranking] at hmatch
        cases hmatch
    | cons first rest =>
        rw [hranking, List.pairwise_cons] at hpairwise
        rw [hranking, List.nodup_cons] at hnodup
        have hfirst : first = place := by
          by_contra hne
          have hmem : place ∈ first :: rest := hranking ▸ hmatches.mp hmatch
          have hbefore := hpairwise.1 place ((List.mem_cons.mp hmem).resolve_left (Ne.symm hne))
          have hafter := (hothers first hne (hmatches.mpr (hranking ▸ List.mem_cons_self))).2
          rw [ByScore] at hbefore
          omega
        subst hfirst
        refine ⟨rest.map (catalog.resultAt (queryTokens query) locale), ?_, ?_⟩
        · rw [List.map_cons, resultAt, htotal]
        · cases rest with
          | nil => exact Or.inl rfl
          | cons second rest =>
              have hne : second ≠ first := fun heq => hnodup.1 (heq ▸ List.mem_cons_self)
              have hmem : second ∈ catalog.ranking (queryTokens query) locale := by simp [hranking]
              exact Or.inr (hothers second hne (hmatches.mpr hmem)).1
  · intro hcut
    obtain ⟨cut, hmap, hlimit⟩ := hcut
    obtain ⟨place, rest, hranking, hresult, rfl⟩ := List.map_eq_cons_iff.mp hmap
    obtain ⟨rfl, htotal⟩ := SearchResult.mk.inj hresult
    rw [hranking, List.pairwise_cons] at hpairwise
    refine ⟨place, rfl, hmatches.mpr (hranking ▸ List.mem_cons_self), htotal, fun other hne hmatch => ?_⟩
    have hmem : other ∈ place :: rest := hranking ▸ hmatches.mp hmatch
    have hrest : other ∈ rest := (List.mem_cons.mp hmem).resolve_left hne
    have hbefore := hpairwise.1 other hrest
    rw [ByScore] at hbefore
    refine ⟨hlimit.resolve_left fun hnil => ?_, by omega⟩
    rw [List.map_eq_nil_iff.mp hnil] at hrest
    cases hrest

/-- Fewer than ten tokens never add up to the score of an exact hit. -/
theorem exactAgrees_iff_of_few_tokens {catalog : EmojiCatalog} {query : Bytes} {locale : Locale} {limit : Nat}
    (h : (queryTokens query).length < 10) :
    catalog.ExactAgrees query locale limit ↔ catalog.contains query = false := by
  rw [contains, Option.isSome_eq_false_iff, Option.isNone_iff_eq_none]
  constructor
  · intro hagrees
    by_contra hsome
    obtain ⟨record, hrecord⟩ := Option.ne_none_iff_exists'.mp hsome
    obtain ⟨-, -, hmatches, htotal, -⟩ := hagrees record hrecord
    have hbound := (scoreSum_bounds hmatches).2
    omega
  · intro hnone record hrecord
    cases hnone.symm.trans hrecord

theorem queryTokens_congr {one other : Bytes} (h : normalizeForSearch one = normalizeForSearch other) :
    queryTokens one = queryTokens other := by
  rw [queryTokens, queryTokens, h]

/-- Two queries with one normal form find the same exactly when no exact hit tells them apart: they are one query or find nothing at all, or the tokens lead to what either hits exactly. -/
theorem search_normal_iff (catalog : EmojiCatalog) (one other : Bytes) (locale : Locale) (limit : Nat)
    (h : normalizeForSearch one = normalizeForSearch other) :
    catalog.search one locale limit = catalog.search other locale limit ↔
      one = other ∨ normalizeForSearch one = [] ∨ limit = 0 ∨
        (catalog.ExactAgrees one locale limit ∧ catalog.ExactAgrees other locale limit) := by
  by_cases hsame : one = other
  · simp [hsame]
  by_cases hnone : normalizeForSearch one = [] ∨ limit = 0
  · rw [catalog.search_eq_nil locale hnone, catalog.search_eq_nil locale (h ▸ hnone)]
    simp only [true_iff]
    exact Or.inr (hnone.elim Or.inl fun hlimit => Or.inr (Or.inl hlimit))
  obtain ⟨hnormal, hlimit⟩ := not_or.mp hnone
  have hnormal' : normalizeForSearch other ≠ [] := h ▸ hnormal
  have htokens := queryTokens_congr h
  rw [or_iff_right hsame, or_iff_right hnormal, or_iff_right hlimit, exactAgrees_iff hlimit, exactAgrees_iff hlimit, htokens]
  cases hone : catalog.find one with
  | none =>
      rw [search_of_find_eq_none hnormal hone, htokens]
      cases hother : catalog.find other with
      | none =>
          rw [search_of_find_eq_none hnormal' hother]
          simp
      | some record =>
          rw [search_of_find_eq_some hnormal' hother locale hlimit]
          simp
  | some record =>
      rw [search_of_find_eq_some hnormal hone locale hlimit]
      cases hother : catalog.find other with
      | none =>
          rw [search_of_find_eq_none hnormal' hother]
          simp [eq_comm]
      | some second =>
          rw [search_of_find_eq_some hnormal' hother locale hlimit]
          have hdiffer : record ≠ second := by
            intro heq
            refine hsame ?_
            rw [← (sequence_of_find hone).2, ← (sequence_of_find hother).2, heq]
          refine iff_of_false (fun hresults => ?_) fun hagree => ?_
          · exact hdiffer (congrArg SearchResult.emoji (List.singleton_inj.mp hresults))
          · have hresults := (hagree.1 record rfl).symm.trans (hagree.2 second rfl)
            exact hdiffer (congrArg SearchResult.emoji (List.singleton_inj.mp hresults))

/-- "face" and " Face": no sequence either way. -/
theorem search_normal_face :
    search ⟨[grinning]⟩ [102, 97, 99, 101] .german 5 = search ⟨[grinning]⟩ [32, 70, 97, 99, 101] .german 5 := by
  refine (search_normal_iff ⟨[grinning]⟩ [102, 97, 99, 101] [32, 70, 97, 99, 101] .german 5 (by decide +kernel)).mpr ?_
  refine Or.inr (Or.inr (Or.inr ⟨?_, ?_⟩))
  · exact (exactAgrees_iff_of_few_tokens (by decide +kernel)).mpr (by decide)
  · exact (exactAgrees_iff_of_few_tokens (by decide +kernel)).mpr (by decide)

/-- A grinning face is found, and with a hyphen after it nothing is. -/
theorem search_normal_hyphen :
    ∃ (catalog : EmojiCatalog) (one other : Bytes) (locale : Locale) (limit : Nat),
      normalizeForSearch one = normalizeForSearch other ∧
        catalog.search one locale limit ≠ catalog.search other locale limit := by
  refine ⟨⟨[grinning]⟩, [240, 159, 152, 128], [240, 159, 152, 128, 45], .english, 5, by decide +kernel, fun heq => ?_⟩
  have hone : (search ⟨[grinning]⟩ [240, 159, 152, 128] .english 5).length = 1 := by decide +kernel
  have hother : (search ⟨[grinning]⟩ [240, 159, 152, 128, 45] .english 5).length = 0 := by decide +kernel
  rw [heq, hother] at hone
  cases hone

end EmojiCatalog

end EmojiPalette
