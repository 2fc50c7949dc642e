import Mathlib.Logic.Function.Basic

/-!
# Files by location

A disk is what stands at each location. A file that is written beside its target and then renamed over it leaves one of two disks behind: the old one, when the new file is removed again, or the old one with the target replaced.
-/

namespace Files

variable {Location Content : Type} [DecidableEq Location]

/-- What stands at each location, if anything does. -/
abbrev Table (Location Content : Type) := Location → Option Content

variable {table : Table Location Content} {location source target : Location} {content : Content}

def put (table : Table Location Content) (location : Location) (content : Content) : Table Location Content :=
  Function.update table location (some content)

def remove (table : Table Location Content) (location : Location) : Table Location Content :=
  Function.update table location none

/-- The file at the source takes the place of whatever stood at the target, at once. -/
def rename (table : Table Location Content) (source target : Location) : Table Location Content :=
  Function.update (remove table source) target (table source)

@[simp] theorem put_self : put table location content location = some content :=
  Function.update_self _ _ _

theorem put_of_ne {other : Location} (h : other ≠ location) : put table location content other = table other :=
  Function.update_of_ne h _ _

@[simp] theorem put_put {later : Content} :
    put (put table location content) location later = put table location later :=
  Function.update_idem _ _ _

/-- A new file removed again was never there. -/
theorem remove_put (h : table location = none) : remove (put table location content) location = table := by
  rw [remove, put, Function.update_idem, ← h, Function.update_eq_self]

/-- A new file renamed away leaves nothing of itself but what it replaces. -/
theorem rename_put (h : table source = none) :
    rename (put table source content) source target = put table target content := by
  rw [rename, remove_put h, put_self, put]

end Files
