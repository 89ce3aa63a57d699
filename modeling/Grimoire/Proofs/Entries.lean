import Grimoire.Entries
import Mathlib.Data.List.Induction
import Mathlib.Data.List.Nodup

/-!
# Laws of ordered entries

Putting under a new key appends (`Entries.put_of_notMem`), putting under a key that is there
replaces the value in place (`Entries.put_append_cons`), and erasing takes out one entry
(`Entries.erase_append_cons`). Of entries that are put one after the other, each key keeps the place
of its first one (`Entries.isFirstSeen_keys_putAll`) and has the value of its last one
(`Entries.find?_putAll`). Keys that stay the same and are distinct are mapped to themselves
(`Entries.mapKeys_eq_self`). Sorting forgets the order and nothing else (`Entries.sorted_eq_iff`).
-/

namespace Grimoire

/-- Whether a list has each text of another one exactly once, in the order in which they first come
there. -/
structure IsFirstSeen (once all : List Text) : Prop where
  mem_iff : ∀ t, t ∈ once ↔ t ∈ all
  ordered : once.Pairwise fun t u => all.idxOf t < all.idxOf u

namespace IsFirstSeen

variable {once all : List Text}

theorem nil : IsFirstSeen [] [] := ⟨fun _ => Iff.rfl, .nil⟩

/-- None of them is listed twice. -/
theorem nodup (seen : IsFirstSeen once all) : once.Nodup :=
  seen.ordered.imp fun less same => absurd (same ▸ less) (Nat.lt_irrefl _)

/-- One more text goes to the end, unless it has come before. -/
theorem concat (seen : IsFirstSeen once all) (t : Text) :
    IsFirstSeen (if t ∈ once then once else once ++ [t]) (all ++ [t]) := by
  have early {u : Text} (old : u ∈ once) : (all ++ [t]).idxOf u = all.idxOf u :=
    List.idxOf_append_of_mem ((seen.mem_iff u).mp old)
  have ordered : once.Pairwise fun u v => (all ++ [t]).idxOf u < (all ++ [t]).idxOf v := by
    refine seen.ordered.imp_of_mem fun old old' less => ?_
    rwa [early old, early old']
  split
  · next old =>
    refine ⟨fun u => ?_, ordered⟩
    rw [List.mem_append, ← seen.mem_iff, List.mem_singleton]
    exact ⟨.inl, fun h => h.elim id fun same => same ▸ old⟩
  · next new =>
    refine ⟨fun u => by rw [List.mem_append, List.mem_append, seen.mem_iff],
      List.pairwise_append.mpr ⟨ordered, List.pairwise_singleton _ _, fun u old v last => ?_⟩⟩
    obtain rfl := List.mem_singleton.mp last
    have absent : v ∉ all := fun member => new ((seen.mem_iff v).mpr member)
    rw [early old, List.idxOf_append_of_notMem absent]
    exact Nat.lt_add_right _ (List.idxOf_lt_length_of_mem ((seen.mem_iff u).mp old))

/-- Which of two texts comes first does not depend on others that are left out. -/
theorem idxOf_filter_lt {keep : Text → Bool} {t u : Text} (kept : keep t = true)
    (before : all.idxOf t < all.idxOf u) :
    (all.filter keep).idxOf t < (all.filter keep).idxOf u := by
  induction all with
  | nil => exact absurd before (by simp)
  | cons v all ih =>
    by_cases first : v = t
    · subst first
      have other : v ≠ u := by
        rintro rfl
        exact absurd before (Nat.lt_irrefl _)
      rw [List.filter_cons_of_pos kept, List.idxOf_cons_self, List.idxOf_cons_ne _ other]
      exact Nat.succ_pos _
    · have behind : v ≠ u := by
        rintro rfl
        rw [List.idxOf_cons_self] at before
        exact absurd before (Nat.not_lt_zero _)
      rw [List.idxOf_cons_ne _ first, List.idxOf_cons_ne _ behind, Nat.succ_lt_succ_iff] at before
      have rest := ih before
      rw [List.filter_cons]
      split
      · rwa [List.idxOf_cons_ne _ first, List.idxOf_cons_ne _ behind, Nat.succ_lt_succ_iff]
      · exact rest

/-- Texts that are left out on both sides do not matter. -/
theorem filter (seen : IsFirstSeen once all) (keep : Text → Bool) :
    IsFirstSeen (once.filter keep) (all.filter keep) := by
  refine ⟨fun t => by rw [List.mem_filter, List.mem_filter, seen.mem_iff], ?_⟩
  exact (seen.ordered.filter keep).imp_of_mem fun member _ before =>
    idxOf_filter_lt (List.mem_filter.mp member).2 before

end IsFirstSeen

namespace Entries

variable {α : Type}

theorem put_of_notMem {key : Text} {entries : Entries α} (fresh : key ∉ keys entries) (value : α) :
    put key value entries = entries ++ [(key, value)] := by
  induction entries with
  | nil => rfl
  | cons entry rest ih =>
    obtain ⟨k, v⟩ := entry
    simp only [keys, List.map_cons, List.mem_cons, not_or] at fresh
    have other : ¬k = key := fun h => fresh.1 h.symm
    rw [put, if_neg other, ih fresh.2]
    rfl

theorem mem_of_find? {key : Text} {entries : Entries α} {value : α}
    (found : find? key entries = some value) : (key, value) ∈ entries := by
  induction entries with
  | nil => exact absurd found (by simp [find?])
  | cons entry rest ih =>
    obtain ⟨k, v⟩ := entry
    rw [find?] at found
    split at found
    · next same =>
      rw [same, Option.some.inj found]
      exact List.mem_cons_self
    · exact List.mem_cons_of_mem _ (ih found)

theorem find?_of_notMem {key : Text} {entries : Entries α} (absent : key ∉ keys entries) :
    find? key entries = none :=
  Option.eq_none_iff_forall_ne_some.mpr fun value found =>
    absent (List.mem_map.mpr ⟨(key, value), mem_of_find? found, rfl⟩)

/-- Entries under other keys do not matter to a look-up. -/
theorem find?_filter {keep : Text → Bool} {key : Text} (kept : keep key = true)
    (entries : Entries α) : find? key (entries.filter fun e => keep e.1) = find? key entries := by
  induction entries with
  | nil => rfl
  | cons entry rest ih =>
    obtain ⟨k, v⟩ := entry
    rw [find?, List.filter_cons]
    by_cases same : k = key
    · subst same
      rw [if_pos kept, if_pos rfl, find?, if_pos rfl]
    · rw [if_neg same, ← ih]
      split
      · rw [find?, if_neg same]
      · rfl

theorem mem_put {key : Text} {value : α} {entries : Entries α} {e : Text × α}
    (member : e ∈ put key value entries) : e = (key, value) ∨ e ∈ entries := by
  induction entries with
  | nil => simpa [put] using member
  | cons f entries ih =>
    rw [put] at member
    split at member
    · next same =>
      rcases List.mem_cons.mp member with rfl | member
      · exact .inl (by rw [same])
      · exact .inr (List.mem_cons_of_mem _ member)
    · rcases List.mem_cons.mp member with rfl | member
      · exact .inr List.mem_cons_self
      · rcases ih member with h | h
        · exact .inl h
        · exact .inr (List.mem_cons_of_mem _ h)

theorem put_append_cons {key : Text} {front : Entries α} (before : key ∉ keys front) (old value : α)
    (back : Entries α) : put key value (front ++ (key, old) :: back)
      = front ++ (key, value) :: back := by
  induction front with
  | nil => simp [put]
  | cons e front ih =>
    obtain ⟨k, v⟩ := e
    simp only [keys, List.map_cons, List.mem_cons, not_or] at before
    have other : ¬k = key := fun h => before.1 h.symm
    rw [List.cons_append, put, if_neg other, ih before.2]
    rfl

theorem erase_append_cons {key : Text} {front back : Entries α} (before : key ∉ keys front)
    (behind : key ∉ keys back) (old : α) : erase key (front ++ (key, old) :: back)
      = front ++ back := by
  have stays : ∀ entries : Entries α, key ∉ keys entries → erase key entries = entries := by
    intro entries absent
    refine List.filter_eq_self.mpr fun e member => ?_
    have other : e.1 ≠ key := fun h => absent (List.mem_map.mpr ⟨e, member, h⟩)
    simp [other]
  have first := stays front before
  have last := stays back behind
  unfold erase at first last ⊢
  rw [List.filter_append, List.filter_cons, first, last]
  simp

/-! ## Entries put one after the other -/

theorem putAll_concat (entries news : Entries α) (e : Text × α) :
    putAll entries (news ++ [e]) = put e.1 e.2 (putAll entries news) := List.foldl_concat ..

theorem isFirstSeen_keys_putAll (news : Entries α) :
    IsFirstSeen (keys (putAll [] news)) (keys news) := by
  induction news using List.reverseRecOn with
  | nil => exact .nil
  | append_singleton news e ih =>
    have all : keys (news ++ [e]) = keys news ++ [e.1] := List.map_append
    rw [putAll_concat, keys_put, all]
    exact ih.concat e.1

theorem find?_putAll (news : Entries α) (key : Text) :
    find? key (putAll [] news) = (news.reverse.find? fun e => e.1 = key).map Prod.snd := by
  induction news using List.reverseRecOn with
  | nil => rfl
  | append_singleton news e ih =>
    rw [putAll_concat, find?_put, List.reverse_concat, List.find?_cons]
    by_cases same : e.1 = key
    · simp [same]
    · simp [same, ih]

theorem putAll_append (entries news more : Entries α) :
    putAll entries (news ++ more) = putAll (putAll entries news) more := List.foldl_append

/-- A new value counts before one that was there, and of two new ones the last one. -/
theorem find?_putAll_reverse (entries news : Entries α) (key : Text) :
    find? key (putAll entries news) = (find? key news.reverse).or (find? key entries) := by
  induction news using List.reverseRecOn with
  | nil => rfl
  | append_singleton news e ih =>
    rw [putAll_concat, find?_put, ih, List.reverse_concat, find?]
    by_cases same : e.1 = key
    · simp [same]
    · simp [same]

/-- The keys that are there stay in their places, and of the other ones each follows once. -/
theorem exists_keys_putAll (entries news : Entries α) :
    ∃ fresh, keys (putAll entries news) = keys entries ++ fresh ∧
      IsFirstSeen fresh ((keys news).filter (· ∉ keys entries)) := by
  induction news using List.reverseRecOn with
  | nil => exact ⟨[], (List.append_nil _).symm, .nil⟩
  | append_singleton news e ih =>
    obtain ⟨fresh, all, seen⟩ := ih
    have more : keys (news ++ [e]) = keys news ++ [e.1] := List.map_append
    rw [putAll_concat, keys_put, all, more, List.filter_append]
    by_cases known : e.1 ∈ keys entries
    · refine ⟨fresh, if_pos (List.mem_append_left _ known), ?_⟩
      simpa [known] using seen
    · refine ⟨_, ?_, by simpa [known] using seen.concat e.1⟩
      by_cases old : e.1 ∈ fresh <;> simp [known, old]

theorem nodup_keys_putAll {entries : Entries α} (distinct : (keys entries).Nodup)
    (news : Entries α) : (keys (putAll entries news)).Nodup := by
  induction news generalizing entries with
  | nil => exact distinct
  | cons e news ih => exact ih (nodup_keys_put distinct)

theorem mem_putAll {entries news : Entries α} {e : Text × α} (member : e ∈ putAll entries news) :
    e ∈ entries ∨ e ∈ news := by
  induction news generalizing entries with
  | nil => exact .inl member
  | cons f news ih =>
    rcases ih member with member | member
    · rcases mem_put member with rfl | member
      · exact .inr List.mem_cons_self
      · exact .inl member
    · exact .inr (List.mem_cons_of_mem f member)

/-- The keys that are there stay in their places, and the other ones follow in their order. -/
theorem keys_putAll (entries : Entries α) {news : Entries α} (distinct : (keys news).Nodup) :
    keys (putAll entries news) = keys entries ++ (keys news).filter (· ∉ keys entries) := by
  induction news using List.reverseRecOn with
  | nil => simp [putAll, keys]
  | append_singleton news e ih =>
    have all : keys (news ++ [e]) = keys news ++ [e.1] := List.map_append
    rw [all, List.nodup_append] at distinct
    obtain ⟨distinct, -, apart⟩ := distinct
    have fresh : e.1 ∉ keys news := fun member => apart _ member _ (List.mem_singleton_self _) rfl
    have old : e.1 ∈ keys (putAll entries news) ↔ e.1 ∈ keys entries := by
      rw [ih distinct, List.mem_append, List.mem_filter]
      exact ⟨fun h => h.elim id fun h => absurd h.1 fresh, .inl⟩
    rw [putAll_concat, keys_put, all, List.filter_append, ih distinct]
    by_cases known : e.1 ∈ keys entries
    · rw [if_pos (ih distinct ▸ old.mpr known), List.filter_singleton]
      simp [known]
    · rw [if_neg (ih distinct ▸ fun h => known (old.mp h)), List.filter_singleton]
      simp [known]

/-- A new value counts before one that was there. -/
theorem find?_putAll_of_nodup (entries : Entries α) {news : Entries α}
    (distinct : (keys news).Nodup) (key : Text) :
    find? key (putAll entries news) = (find? key news).or (find? key entries) := by
  induction news generalizing entries with
  | nil => rfl
  | cons e news ih =>
    obtain ⟨k, v⟩ := e
    obtain ⟨fresh, distinct⟩ := List.nodup_cons.mp distinct
    have step : putAll entries ((k, v) :: news) = putAll (put k v entries) news := rfl
    rw [step, ih _ distinct, find?_put, find?]
    by_cases same : k = key
    · subst same
      simp [find?_of_notMem fresh]
    · simp [same]

/-- Entries under keys of their own go to the end as they are. -/
theorem putAll_eq_append {entries news : Entries α} (distinct : (keys (entries ++ news)).Nodup) :
    putAll entries news = entries ++ news := by
  induction news using List.reverseRecOn with
  | nil => rw [List.append_nil]; rfl
  | append_singleton news e ih =>
    rw [← List.append_assoc, keys, List.map_append, List.nodup_append] at distinct
    obtain ⟨front, -, apart⟩ := distinct
    have fresh : e.1 ∉ keys (entries ++ news) := fun member =>
      apart _ member _ (List.mem_singleton_self _) rfl
    rw [putAll_concat, ih front, put_of_notMem fresh, List.append_assoc]

theorem put_map {β : Type} (g : α → β) (key : Text) (value : α) (entries : Entries α) :
    put key (g value) (entries.map fun e => (e.1, g e.2))
      = (put key value entries).map fun e => (e.1, g e.2) := by
  induction entries with
  | nil => rfl
  | cons e entries ih =>
    rw [List.map_cons, put, put]
    split
    · rfl
    · rw [ih, List.map_cons]

theorem putAll_map {β : Type} (g : α → β) (entries news : Entries α) :
    putAll (entries.map fun e => (e.1, g e.2)) (news.map fun e => (e.1, g e.2))
      = (putAll entries news).map fun e => (e.1, g e.2) := by
  induction news using List.reverseRecOn with
  | nil => rfl
  | append_singleton news e ih =>
    rw [List.map_append, List.map_singleton, putAll_concat, putAll_concat, ih]
    exact put_map g e.1 e.2 _

/-! ## Entries under other keys -/

section MapKeys

variable {f : Text → Text}

theorem mapKeys_concat (entries : Entries α) (e : Text × α) :
    mapKeys f (entries ++ [e]) = put (f e.1) e.2 (mapKeys f entries) := by
  rw [mapKeys, List.map_append, List.map_singleton, putAll_concat]
  rfl

theorem nodup_keys_mapKeys (entries : Entries α) : (keys (mapKeys f entries)).Nodup :=
  @nodup_keys_putAll α [] List.nodup_nil _

theorem mem_mapKeys {entries : Entries α} {e : Text × α} (member : e ∈ mapKeys f entries) :
    ∃ k, (k, e.2) ∈ entries ∧ e.1 = f k := by
  rcases mem_putAll member with none | member
  · exact absurd none List.not_mem_nil
  · obtain ⟨⟨k, v⟩, inside, rfl⟩ := List.mem_map.mp member
    exact ⟨k, inside, rfl⟩

theorem mem_keys_mapKeys {entries : Entries α} {key : Text}
    (member : key ∈ keys (mapKeys f entries)) : ∃ k ∈ keys entries, key = f k := by
  obtain ⟨e, inside, rfl⟩ := List.mem_map.mp member
  obtain ⟨k, before, same⟩ := mem_mapKeys inside
  exact ⟨k, List.mem_map_of_mem before, same⟩

theorem mapKeys_eq_self {entries : Entries α} (distinct : (keys entries).Nodup)
    (fixed : ∀ key ∈ keys entries, f key = key) : mapKeys f entries = entries := by
  have stays : entries.map (fun e => (f e.1, e.2)) = entries.map id :=
    List.map_congr_left fun e member => Prod.ext (fixed e.1 (List.mem_map_of_mem member)) rfl
  have same : mapKeys f entries = putAll [] entries :=
    congrArg (putAll []) (stays.trans (List.map_id _))
  rw [same]
  exact putAll_eq_append distinct

theorem mapKeys_mapKeys (twice : ∀ key, f (f key) = f key) (entries : Entries α) :
    mapKeys f (mapKeys f entries) = mapKeys f entries := by
  refine mapKeys_eq_self (nodup_keys_mapKeys entries) fun key member => ?_
  obtain ⟨k, -, rfl⟩ := mem_keys_mapKeys member
  exact twice k

theorem mapKeys_map {β : Type} (g : α → β) (entries : Entries α) :
    mapKeys f (entries.map fun e => (e.1, g e.2))
      = (mapKeys f entries).map fun e => (e.1, g e.2) := by
  have pairs := putAll_map g [] (entries.map fun e => (f e.1, e.2))
  rw [List.map_map] at pairs
  rw [mapKeys, mapKeys, List.map_map]
  exact pairs

end MapKeys

theorem hasKey_iff {key : Text} {entries : Entries α} :
    hasKey key entries = true ↔ key ∈ keys entries := by
  simp [hasKey, keys, List.any_eq_true]

/-! ## Entries as mappings -/

theorem mem_iff_find? {entries : Entries α} (distinct : (keys entries).Nodup) {key : Text}
    {value : α} : (key, value) ∈ entries ↔ find? key entries = some value := by
  refine ⟨fun member => ?_, mem_of_find?⟩
  induction entries with
  | nil => exact absurd member List.not_mem_nil
  | cons e rest ih =>
    obtain ⟨k, v⟩ := e
    obtain ⟨fresh, distinct⟩ := List.nodup_cons.mp distinct
    rw [find?]
    rcases List.mem_cons.mp member with same | member
    · obtain ⟨rfl, rfl⟩ := Prod.mk.inj same
      rw [if_pos rfl]
    · have other : k ≠ key := by
        rintro rfl
        exact fresh (List.mem_map.mpr ⟨_, member, rfl⟩)
      rw [if_neg other]
      exact ih distinct member

/-- Where keys are distinct, what is put is the only entry under its key. -/
theorem mem_put_of_nodup {entries : Entries α} (distinct : (keys entries).Nodup) {key : Text}
    {value : α} {e : Text × α} (member : e ∈ put key value entries) :
    e = (key, value) ∨ e ∈ entries ∧ e.1 ≠ key := by
  obtain ⟨k, v⟩ := e
  have found := (mem_iff_find? (nodup_keys_put distinct)).mp member
  rw [find?_put] at found
  split at found
  · next same => exact .inl (by rw [same, Option.some.inj found])
  · next other => exact .inr ⟨mem_of_find? found, Ne.symm other⟩

theorem perm_iff_find? {entries entries' : Entries α} (distinct : (keys entries).Nodup)
    (distinct' : (keys entries').Nodup) :
    entries.Perm entries' ↔ ∀ key, find? key entries = find? key entries' := by
  rw [List.perm_ext_iff_of_nodup (List.Nodup.of_map _ distinct) (List.Nodup.of_map _ distinct')]
  constructor
  · intro same key
    refine Option.ext fun value => ?_
    rw [← mem_iff_find? distinct, ← mem_iff_find? distinct', same]
  · rintro same ⟨key, value⟩
    rw [mem_iff_find? distinct, mem_iff_find? distinct', same]

theorem pairwise_sorted (entries : Entries α) :
    (sorted entries).Pairwise fun e f => Text.le e.1 f.1 = true := by
  refine List.pairwise_mergeSort (fun e f g first second => ?_) (fun e f => ?_) entries
  · exact Text.le_trans first second
  · exact Text.le_total e.1 f.1

/-- Entries are the same when sorted exactly when they are the same mapping. -/
theorem sorted_eq_iff {entries entries' : Entries α} (distinct : (keys entries).Nodup)
    (distinct' : (keys entries').Nodup) :
    sorted entries = sorted entries' ↔ ∀ key, find? key entries = find? key entries' := by
  rw [← perm_iff_find? distinct distinct']
  have perm : (sorted entries).Perm entries := List.mergeSort_perm _ _
  have perm' : (sorted entries').Perm entries' := List.mergeSort_perm _ _
  constructor
  · intro same
    rw [same] at perm
    exact perm.symm.trans perm'
  · intro same
    have both : (sorted entries).Perm (sorted entries') := perm.trans (same.trans perm'.symm)
    refine both.eq_of_pairwise ?_ (pairwise_sorted _) (pairwise_sorted _)
    rintro ⟨k, v⟩ ⟨l, w⟩ member member' le ge
    obtain rfl : k = l := Text.le_antisymm le ge
    have found := (mem_iff_find? distinct).mp (perm.mem_iff.mp member)
    have found' := (mem_iff_find? distinct).mp (same.mem_iff.mpr (perm'.mem_iff.mp member'))
    rw [Option.some.inj (found.symm.trans found')]

end Entries

end Grimoire
