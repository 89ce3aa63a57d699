import Grimoire.Text.CodePoint

/-!
# Ordered entries

Members of an object, headers of a request, files of a bundle and spells of a book are lists of
entries in the order in which their keys first came. Putting an entry under a key that is there
replaces the value in place; otherwise the entry goes to the end.

Main statements: `Entries.find?_put`, `Entries.keys_put` and `Entries.nodup_keys_put` (what putting
does to the view by key, to the order, and to distinctness).
-/

namespace Grimoire

/-- Entries in the order in which their keys first came. -/
abbrev Entries (α : Type) := List (Text × α)

namespace Entries

variable {α : Type}

/-- The keys in order. -/
def keys (entries : Entries α) : List Text := entries.map Prod.fst

/-- The values in order. -/
def values (entries : Entries α) : List α := entries.map Prod.snd

/-- The value under a key. -/
def find? (key : Text) : Entries α → Option α
  | [] => none
  | (k, v) :: rest => if k = key then some v else find? key rest

/-- Whether there is an entry under a key. -/
def hasKey (key : Text) (entries : Entries α) : Bool := entries.any fun (k, _) => k = key

/-- Puts a value under a key: in place if the key is there, at the end otherwise. -/
def put (key : Text) (value : α) : Entries α → Entries α
  | [] => [(key, value)]
  | (k, v) :: rest => if k = key then (k, value) :: rest else (k, v) :: put key value rest

/-- Takes out the entry under a key. -/
def erase (key : Text) (entries : Entries α) : Entries α :=
  entries.filter fun (k, _) => k ≠ key

/-- Puts entries one after the other into entries that are there. -/
def putAll (entries : Entries α) (news : List (Text × α)) : Entries α :=
  news.foldl (fun entries (k, v) => put k v entries) entries

/-- The entries with another key for each. Where keys fall together, the first place and the last value
count. -/
def mapKeys (f : Text → Text) (entries : Entries α) : Entries α :=
  putAll [] (entries.map fun (k, v) => (f k, v))

/-- The entries sorted by key. -/
def sorted (entries : Entries α) : Entries α :=
  entries.mergeSort fun (k, _) (l, _) => Text.le k l

theorem find?_put (key key' : Text) (value : α) (entries : Entries α) :
    find? key' (put key value entries)
      = if key = key' then some value else find? key' entries := by
  induction entries with
  | nil => simp [put, find?]
  | cons entry rest ih =>
    obtain ⟨k, v⟩ := entry
    by_cases hk : k = key
    · subst hk
      by_cases hkey : k = key' <;> simp [put, find?, hkey]
    · by_cases hkey : k = key'
      · subst hkey
        have : ¬key = k := fun h => hk h.symm
        simp [put, find?, hk, this]
      · simp [put, find?, hk, hkey, ih]

theorem keys_put (key : Text) (value : α) (entries : Entries α) :
    keys (put key value entries)
      = if key ∈ keys entries then keys entries else keys entries ++ [key] := by
  induction entries with
  | nil => simp [put, keys]
  | cons entry rest ih =>
    obtain ⟨k, v⟩ := entry
    by_cases hk : k = key
    · subst hk
      simp [put, keys]
    · have hk' : ¬key = k := fun h => hk h.symm
      simp only [put, hk, if_false, keys, List.map_cons, List.mem_cons, hk', false_or] at ih ⊢
      rw [ih]
      split <;> simp_all

theorem nodup_keys_put {key : Text} {value : α} {entries : Entries α}
    (h : (keys entries).Nodup) : (keys (put key value entries)).Nodup := by
  rw [keys_put]
  split
  · exact h
  · rename_i hkey
    rw [List.nodup_append]
    refine ⟨h, by simp, ?_⟩
    intro a ha b hb
    rw [List.mem_singleton] at hb
    rintro rfl
    exact hkey (hb ▸ ha)

end Entries

end Grimoire
