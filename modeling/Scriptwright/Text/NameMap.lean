import Scriptwright.Text.Basic

/-!
# Maps from names, in the order of the names

A `NameMap` keeps one entry per name, in ascending order of the names by code
point, and the order is part of the type: two maps with the same entries are
equal, and listing a map needs no sorting.

* `find?_insert` — after an insertion the new name has the new value and every
  other name the value it had;
* `contains_insert` — and the names present are the old ones and the new one;
* `mem_names`, `nodup_names` — the names listed are those present, each once.

A set of names is a map to `Unit`.
-/

namespace Scriptwright

namespace Text

/-- Of two names one comes first, or they are the same. -/
theorem lt_or_eq_or_gt (s t : Text) : s < t ∨ s = t ∨ t < s := by
  rcases Classical.em (s < t) with h | h
  · exact .inl h
  · rcases Classical.em (t < s) with h' | h'
    · exact .inr (.inr h')
    · exact .inr (.inl (List.le_antisymm (List.not_lt.1 h') (List.not_lt.1 h)))

end Text

/-- A finite map from names, with its entries in ascending order. -/
structure NameMap (α : Type) where
  entries : List (Text × α)
  ascending : entries.Pairwise fun a b => a.1 < b.1

namespace NameMap

variable {α : Type}

/-- The map without entries. -/
def empty : NameMap α := ⟨[], .nil⟩

/-- Puts an entry in its place, replacing one of the same name. -/
def insertEntry (name : Text) (value : α) : List (Text × α) → List (Text × α)
  | [] => [(name, value)]
  | (other, old) :: rest =>
      if name < other then (name, value) :: (other, old) :: rest
      else if name = other then (name, value) :: rest
      else (other, old) :: insertEntry name value rest

/-- Insertion adds nothing but the entry. -/
theorem mem_insertEntry {name : Text} {value : α} {e : Text × α} {l : List (Text × α)}
    (h : e ∈ insertEntry name value l) : e = (name, value) ∨ e ∈ l := by
  induction l with
  | nil => simpa [insertEntry] using h
  | cons hd tl ih =>
      obtain ⟨other, old⟩ := hd
      rw [insertEntry] at h
      split at h
      · simpa using h
      · split at h
        · rcases List.mem_cons.1 h with h | h
          · exact .inl h
          · exact .inr (List.mem_cons_of_mem _ h)
        · rcases List.mem_cons.1 h with h | h
          · exact .inr (h ▸ List.mem_cons_self)
          · exact (ih h).imp_right (List.mem_cons_of_mem _)

/-- **Insertion keeps the names in order.** -/
theorem ascending_insertEntry (name : Text) (value : α) {l : List (Text × α)}
    (h : l.Pairwise fun a b => a.1 < b.1) :
    (insertEntry name value l).Pairwise fun a b => a.1 < b.1 := by
  induction l with
  | nil => simp [insertEntry]
  | cons hd tl ih =>
      obtain ⟨other, old⟩ := hd
      obtain ⟨hhd, htl⟩ := List.pairwise_cons.1 h
      rw [insertEntry]
      split
      next hlt =>
        refine List.pairwise_cons.2 ⟨fun e he => ?_, h⟩
        rcases List.mem_cons.1 he with rfl | he
        · exact hlt
        · exact List.lt_trans hlt (hhd e he)
      next hlt =>
        split
        next heq => subst heq; exact List.pairwise_cons.2 ⟨hhd, htl⟩
        next hne =>
          refine List.pairwise_cons.2 ⟨fun e he => ?_, ih htl⟩
          rcases mem_insertEntry he with rfl | he
          · exact ((Text.lt_or_eq_or_gt name other).resolve_left hlt).resolve_left hne
          · exact hhd e he

/-- Adds an entry, replacing one of the same name. -/
def insert (m : NameMap α) (name : Text) (value : α) : NameMap α :=
  ⟨insertEntry name value m.entries, ascending_insertEntry name value m.ascending⟩

/-- The value of a name. -/
def find? (m : NameMap α) (name : Text) : Option α := m.entries.lookup name

/-- Whether a name has an entry. -/
def contains (m : NameMap α) (name : Text) : Bool := (m.find? name).isSome

/-- The names, in ascending order. -/
def names (m : NameMap α) : List Text := m.entries.map Prod.fst

/-- The number of entries. -/
def size (m : NameMap α) : Nat := m.entries.length

/-- The first entry is found by its name, and the others behind it. -/
theorem lookup_cons_if (key other : Text) (value : α) (l : List (Text × α)) :
    ((key, value) :: l).lookup other = if other = key then some value else l.lookup other := by
  by_cases h : other = key
  · simp [h]
  · rw [List.lookup_cons, beq_false_of_ne h, if_neg h]

/-- In the list, what was inserted is found by its name, and all else as before. -/
theorem lookup_insertEntry (name other : Text) (value : α) (l : List (Text × α)) :
    (insertEntry name value l).lookup other =
      if other = name then some value else l.lookup other := by
  induction l with
  | nil => exact lookup_cons_if name other value []
  | cons hd tl ih =>
      obtain ⟨key, old⟩ := hd
      rw [insertEntry]
      split
      · exact lookup_cons_if name other value _
      · split
        next heq => subst heq; simp only [lookup_cons_if]; split <;> rfl
        next hne =>
          simp only [lookup_cons_if, ih]
          by_cases h : other = key
          · subst h; simp [Ne.symm hne]
          · simp [h]

/-- **What was inserted is found**, and other names give what they gave before. -/
theorem find?_insert (m : NameMap α) (name other : Text) (value : α) :
    (m.insert name value).find? other = if other = name then some value else m.find? other :=
  lookup_insertEntry name other value m.entries

/-- A map has the inserted name and those it had before. -/
theorem contains_insert (m : NameMap α) (name other : Text) (value : α) :
    (m.insert name value).contains other = (decide (other = name) || m.contains other) := by
  by_cases h : other = name <;> simp [contains, find?_insert, h]

/-- The names of a map are those it has something for. -/
theorem mem_names {m : NameMap α} {name : Text} : name ∈ m.names ↔ m.contains name = true := by
  simp only [names, contains, find?, List.lookup_isSome_iff, List.mem_map]
  constructor
  · rintro ⟨entry, hentry, rfl⟩
    exact ⟨entry, hentry, by simp⟩
  · rintro ⟨entry, hentry, hname⟩
    exact ⟨entry, hentry, (eq_of_beq hname).symm⟩

/-- The order of the entries leaves no name twice. -/
theorem nodup_names (m : NameMap α) : m.names.Nodup := by
  have hapart : m.entries.Pairwise fun a b => a.1 ≠ b.1 := by
    refine m.ascending.imp ?_
    intro a b hlt heq
    rw [heq] at hlt
    exact List.lt_irrefl b.1 hlt
  exact List.pairwise_map.2 hapart

/-- A map with several entries added in turn. -/
def insertMany (m : NameMap α) (entries : List (Text × α)) : NameMap α :=
  entries.foldl (fun m e => m.insert e.1 e.2) m

end NameMap

/-- A finite set of names. -/
abbrev NameSet := NameMap Unit

namespace NameSet

/-- A set with one more name. -/
def add (s : NameSet) (name : Text) : NameSet := s.insert name ()

/-- A set with several more names. -/
def addMany (s : NameSet) (names : List Text) : NameSet := names.foldl add s

/-- The set of the names in a list. -/
def ofList (names : List Text) : NameSet := addMany .empty names

end NameSet

end Scriptwright
