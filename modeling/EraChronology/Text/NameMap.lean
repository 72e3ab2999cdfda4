set_option autoImplicit false

/-! # Maps by name

A finite map from names to values, listed in the order of the names. Names are ordered by
their code points.
-/

namespace EraChronology.Text

/-- A map from names to values: its entries, in increasing order of the names. -/
structure NameMap (α : Type) where
  entries : List (String × α) := []

namespace NameMap

variable {α : Type}

def empty : NameMap α := {}

/-- Puts an entry in its place, in the stead of an entry of the same name. -/
def insertEntry (name : String) (value : α) : List (String × α) → List (String × α)
  | [] => [(name, value)]
  | (n, v) :: rest =>
    if name = n then (name, value) :: rest
    else if name < n then (name, value) :: (n, v) :: rest
    else (n, v) :: insertEntry name value rest

def insert (m : NameMap α) (name : String) (value : α) : NameMap α :=
  ⟨insertEntry name value m.entries⟩

def find? (m : NameMap α) (name : String) : Option α :=
  (m.entries.find? fun entry => entry.1 = name).map Prod.snd

def names (m : NameMap α) : List String := m.entries.map Prod.fst

/-- The map of a list of bindings, of which later ones win. -/
def ofList (bindings : List (String × α)) : NameMap α :=
  bindings.foldl (fun m binding => m.insert binding.1 binding.2) empty

/-- A name just bound has the new value, and no other name has changed. -/
theorem find?_insert (m : NameMap α) (name other : String) (value : α) :
    (m.insert name value).find? other = if name = other then some value else m.find? other := by
  obtain ⟨entries⟩ := m
  simp only [find?, insert]
  induction entries with
  | nil => by_cases h : name = other <;> simp [insertEntry, h]
  | cons entry rest ih =>
    obtain ⟨n, v⟩ := entry
    by_cases hn : name = n
    · subst hn
      by_cases h : name = other <;> simp [insertEntry, h]
    · by_cases hlt : name < n
      · rw [insertEntry, if_neg hn, if_pos hlt]
        by_cases h : name = other <;> simp [h]
      · rw [insertEntry, if_neg hn, if_neg hlt]
        by_cases h : n = other
        · subst h
          simp [hn]
        · simpa [h] using ih

end NameMap

end EraChronology.Text
