import Grimoire.Proofs.Json.ReadBack
import Mathlib.Data.Nat.Digits.Defs

/-!
# Finite numbers

Putting null in the place of numbers that are not finite changes nothing else: the keys, the levels
and the integers stay (`Json.keys_finiteMembers`, `Json.levels_finite`, `Json.isWritable_finite`),
doing it twice is doing it once (`Json.finite_finite`), and a value without such numbers is left as
it is (`Json.finite_eq_self`). What is read has no integer with too many digits
(`Json.isWritable_of_read`).
-/

namespace Grimoire.Json

/-- Whether a value is not a number out of bounds. -/
def isBounded : Json → Bool
  | float x => x.isFinite
  | _ => true

/-- Whether all numbers in a value are finite. -/
def isFinite (v : Json) : Bool := v.leaves.all isBounded

theorem keys_finiteMembers (ms : Members) :
    Entries.keys (finiteMembers ms) = Entries.keys ms := by
  induction ms with
  | nil => rfl
  | cons m ms ih =>
    simp only [Entries.keys, finiteMembers, List.map_cons] at ih ⊢
    rw [ih]

theorem finiteMembers_eq (ms : Members) :
    finiteMembers ms = ms.map fun m => (m.1, m.2.finite) := by
  induction ms with
  | nil => rfl
  | cons m ms ih => rw [finiteMembers, ih, List.map_cons]

theorem finite_float (x : Binary64) :
    finite (float x) = float x ∧ x.isFinite = true ∨ finite (float x) = null := by
  rw [finite]
  split
  · next h => exact .inl ⟨rfl, h⟩
  · exact .inr rfl

mutual

theorem finite_finite (v : Json) : (finite v).finite = finite v := by
  cases v with
  | float x =>
    rcases finite_float x with ⟨h, -⟩ | h
    · rw [h, h]
    · rw [h]
      rfl
  | arr vs => simp only [finite, finiteItems_finiteItems vs]
  | obj ms => simp only [finite, finiteMembers_finiteMembers ms]
  | _ => rfl

theorem finiteItems_finiteItems (vs : List Json) :
    finiteItems (finiteItems vs) = finiteItems vs := by
  cases vs with
  | nil => rfl
  | cons v vs => simp only [finiteItems, finite_finite v, finiteItems_finiteItems vs]

theorem finiteMembers_finiteMembers (ms : Members) :
    finiteMembers (finiteMembers ms) = finiteMembers ms := by
  cases ms with
  | nil => rfl
  | cons m ms => simp only [finiteMembers, finite_finite m.2, finiteMembers_finiteMembers ms]

end

mutual

theorem levels_finite (v : Json) : (finite v).levels = v.levels := by
  cases v with
  | float x =>
    rcases finite_float x with ⟨h, -⟩ | h
    · rw [h]
    · rw [h]
      rfl
  | arr vs => simp only [finite, levels, levelsItems_finiteItems vs]
  | obj ms => simp only [finite, levels, levelsMembers_finiteMembers ms]
  | _ => rfl

theorem levelsItems_finiteItems (vs : List Json) :
    levelsItems (finiteItems vs) = levelsItems vs := by
  cases vs with
  | nil => rfl
  | cons v vs => simp only [finiteItems, levelsItems, levels_finite v, levelsItems_finiteItems vs]

theorem levelsMembers_finiteMembers (ms : Members) :
    levelsMembers (finiteMembers ms) = levelsMembers ms := by
  cases ms with
  | nil => rfl
  | cons m ms =>
    simp only [finiteMembers, levelsMembers, levels_finite m.2, levelsMembers_finiteMembers ms]

end

theorem levels_arr_le {vs : List Json} {n : Nat} (items : ∀ v ∈ vs, v.levels ≤ n) :
    (arr vs).levels ≤ n + 1 := by
  have most : levelsItems vs ≤ n := by
    induction vs with
    | nil => exact Nat.zero_le n
    | cons v vs ih =>
      rw [List.forall_mem_cons] at items
      exact Nat.max_le.mpr ⟨items.1, ih items.2⟩
  exact Nat.succ_le_succ most

theorem levels_obj_le {ms : Members} {n : Nat} (members : ∀ m ∈ ms, m.2.levels ≤ n) :
    (obj ms).levels ≤ n + 1 := by
  have most : levelsMembers ms ≤ n := by
    induction ms with
    | nil => exact Nat.zero_le n
    | cons m ms ih =>
      rw [List.forall_mem_cons] at members
      exact Nat.max_le.mpr ⟨members.1, ih members.2⟩
  exact Nat.succ_le_succ most

/-- What a member holds is less deep than the object. -/
theorem levels_member_lt {ms : Members} {m : Text × Json} (member : m ∈ ms) :
    m.2.levels < (obj ms).levels := by
  have most : m.2.levels ≤ levelsMembers ms := by
    induction ms with
    | nil => exact absurd member List.not_mem_nil
    | cons n ms ih =>
      rw [levelsMembers]
      rcases List.mem_cons.mp member with rfl | member
      · exact Nat.le_max_left _ _
      · exact (ih member).trans (Nat.le_max_right _ _)
  exact Nat.lt_succ_of_le most

mutual

theorem isProper_finite (v : Json) : (finite v).isProper = v.isProper := by
  cases v with
  | float x =>
    rcases finite_float x with ⟨h, -⟩ | h
    · rw [h]
    · rw [h]
      rfl
  | arr vs => simp only [finite, isProper, isProperItems_finiteItems vs]
  | obj ms => simp only [finite, isProper, keys_finiteMembers, isProperMembers_finiteMembers ms]
  | _ => rfl

theorem isProperItems_finiteItems (vs : List Json) :
    isProperItems (finiteItems vs) = isProperItems vs := by
  cases vs with
  | nil => rfl
  | cons v vs =>
    simp only [finiteItems, isProperItems, isProper_finite v, isProperItems_finiteItems vs]

theorem isProperMembers_finiteMembers (ms : Members) :
    isProperMembers (finiteMembers ms) = isProperMembers ms := by
  cases ms with
  | nil => rfl
  | cons m ms =>
    simp only [finiteMembers, isProperMembers, isProper_finite m.2,
      isProperMembers_finiteMembers ms]

end

mutual

theorem leaves_finite (v : Json) : (finite v).leaves = v.leaves.map finite := by
  cases v with
  | float x =>
    have leaf : (float x).leaves = [float x] := rfl
    rw [leaf]
    rcases finite_float x with ⟨h, -⟩ | h <;> rw [h] <;> simp [h, leaves]
  | arr vs => simp only [finite, leaves, leavesItems_finiteItems vs]
  | obj ms => simp only [finite, leaves, leavesMembers_finiteMembers ms]
  | _ => rfl

theorem leavesItems_finiteItems (vs : List Json) :
    leavesItems (finiteItems vs) = (leavesItems vs).map finite := by
  cases vs with
  | nil => rfl
  | cons v vs =>
    simp only [finiteItems, leavesItems, leaves_finite v, leavesItems_finiteItems vs,
      List.map_append]

theorem leavesMembers_finiteMembers (ms : Members) :
    leavesMembers (finiteMembers ms) = (leavesMembers ms).map finite := by
  cases ms with
  | nil => rfl
  | cons m ms =>
    simp only [finiteMembers, leavesMembers, leaves_finite m.2, leavesMembers_finiteMembers ms,
      List.map_append]

end

mutual

theorem names_finite (v : Json) : (finite v).names = v.names := by
  cases v with
  | float x =>
    rcases finite_float x with ⟨h, -⟩ | h
    · rw [h]
    · rw [h]
      rfl
  | arr vs => simp only [finite, names, namesItems_finiteItems vs]
  | obj ms => simp only [finite, names, namesMembers_finiteMembers ms]
  | _ => rfl

theorem namesItems_finiteItems (vs : List Json) : namesItems (finiteItems vs) = namesItems vs := by
  cases vs with
  | nil => rfl
  | cons v vs => simp only [finiteItems, namesItems, names_finite v, namesItems_finiteItems vs]

theorem namesMembers_finiteMembers (ms : Members) :
    namesMembers (finiteMembers ms) = namesMembers ms := by
  cases ms with
  | nil => rfl
  | cons m ms =>
    simp only [finiteMembers, namesMembers, names_finite m.2, namesMembers_finiteMembers ms]

end

theorem hasFewDigits_finite (v : Json) : (finite v).hasFewDigits = v.hasFewDigits := by
  cases v with
  | float x =>
    rcases finite_float x with ⟨h, -⟩ | h
    · rw [h]
    · rw [h]
      rfl
  | _ => rfl

/-- A value can be written exactly when it can be without the numbers that are not finite. -/
theorem isWritable_finite (v : Json) : (finite v).isWritable = v.isWritable := by
  simp only [isWritable, leaves_finite, List.all_map]
  exact congrArg v.leaves.all (funext hasFewDigits_finite)

theorem isWritable_arr {vs : List Json} :
    (arr vs).isWritable = true ↔ ∀ v ∈ vs, v.isWritable = true := by
  induction vs with
  | nil => simp [isWritable, leaves, leavesItems]
  | cons v vs ih =>
    simp only [isWritable, leaves, leavesItems, List.all_append, Bool.and_eq_true,
      List.forall_mem_cons] at ih ⊢
    rw [ih]

theorem isWritable_item {vs : List Json} (writable : (arr vs).isWritable = true) {v : Json}
    (member : v ∈ vs) : v.isWritable = true := isWritable_arr.mp writable v member

theorem isWritable_obj {ms : Members} :
    (obj ms).isWritable = true ↔ ∀ m ∈ ms, m.2.isWritable = true := by
  induction ms with
  | nil => simp [isWritable, leaves, leavesMembers]
  | cons m ms ih =>
    simp only [isWritable, leaves, leavesMembers, List.all_append, Bool.and_eq_true,
      List.forall_mem_cons] at ih ⊢
    rw [ih]

theorem isWritable_member {ms : Members} (writable : (obj ms).isWritable = true) {m : Text × Json}
    (member : m ∈ ms) : m.2.isWritable = true := isWritable_obj.mp writable m member

/-- What is read can be written. -/
theorem isWritable_of_read {room : Nat} {t : Text} {v : Json} (ok : read room t = .ok v) :
    v.isWritable = true := by
  have int : ∀ n : Int, n.natAbs < 10 ^ digitLimit → (int n).isWritable = true := by
    intro n bound
    simp only [isWritable, leaves, List.all_cons, List.all_nil, Bool.and_true]
    exact decide_eq_true (Nat.toDigits_length 10 n.natAbs digitLimit (by decide) bound)
  have hereditary : IsHereditary fun v => v.isWritable = true :=
    ⟨⟨rfl, fun _ => rfl, int, fun _ => rfl, fun _ => rfl⟩, isWritable_arr.mpr,
      fun _ members => isWritable_obj.mpr members⟩
  exact holds_of_read hereditary ok

mutual

/-- A value without numbers that are not finite is left as it is. -/
theorem finite_eq_self (v : Json) (bounded : v.leaves.all isBounded = true) : finite v = v := by
  cases v with
  | float x =>
    have finite : x.isFinite = true := by simpa [leaves, isBounded] using bounded
    simp [Json.finite, finite]
  | arr vs => simp only [finite, finiteItems_eq_self vs bounded]
  | obj ms => simp only [finite, finiteMembers_eq_self ms bounded]
  | _ => rfl

theorem finiteItems_eq_self (vs : List Json) (bounded : (leavesItems vs).all isBounded = true) :
    finiteItems vs = vs := by
  cases vs with
  | nil => rfl
  | cons v vs =>
    rw [leavesItems, List.all_append, Bool.and_eq_true] at bounded
    rw [finiteItems, finite_eq_self v bounded.1, finiteItems_eq_self vs bounded.2]

theorem finiteMembers_eq_self (ms : Members)
    (bounded : (leavesMembers ms).all isBounded = true) : finiteMembers ms = ms := by
  cases ms with
  | nil => rfl
  | cons m ms =>
    rw [leavesMembers, List.all_append, Bool.and_eq_true] at bounded
    rw [finiteMembers, finite_eq_self m.2 bounded.1, finiteMembers_eq_self ms bounded.2]

end

end Grimoire.Json
