import Grimoire.Proofs.Json.Finite
import Grimoire.Proofs.Json.Limits

/-!
# What printed values are read as

A value that was printed under a readable layout reads back exactly if it fits the reader: no integer
in it has too many digits, and containers are not nested deeper than the reader goes
(`Json.readsAs_print`). Of a value that does not fit, the reader takes the parts in front of the
first one that does not fit either, and stops there (`Json.value_print_stopped`). What was read fits
(`Json.fitsReader_of_read`).
-/

namespace Grimoire.Json

/-- Whether a value can be read: there is room for the containers that are open at once in it, and no
integer has too many digits. -/
def FitsReader (v : Json) (room : Nat) : Prop := v.nesting ≤ room ∧ v.isWritable = true

instance (v : Json) (room : Nat) : Decidable (FitsReader v room) := inferInstanceAs (Decidable (_ ∧ _))

/-- Whether a text is read as a value, or, if the value does not fit the reader, is refused for that
and for nothing else, whatever the room. -/
structure ReadsAs (t : Text) (v : Json) : Prop where
  read_eq : ∀ room, v.FitsReader room → read room t = .ok v
  refused : ∀ room, ¬v.FitsReader room → ∃ error, error.IsLimit ∧ read room t = .error error

/-! ## Stopping -/

/-- Whether the reader stops because a text is too much for it. -/
def Stop.IsLimit : Stop → Prop
  | malformed _ _ => False
  | tooDeep _ | tooManyDigits _ => True

/-- Whether reading stopped because a text is too much for the reader. -/
def IsStopped {α : Type} (outcome : Except Stop α) : Prop :=
  ∃ stop : Stop, stop.IsLimit ∧ outcome = .error stop

theorem IsStopped.map {α β : Type} {outcome : Except Stop α} (stopped : IsStopped outcome)
    (f : α → β) : IsStopped (outcome.map f) := by
  obtain ⟨stop, limit, rfl⟩ := stopped
  exact ⟨stop, limit, rfl⟩

section Parts

variable {inner : Inner} {n : Nat}

/-- What stops the next item stops the items. -/
theorem items_stopped {done : List Json} {s : Text} (fits : s.length < n)
    (stopped : IsStopped (inner s)) : IsStopped (items inner n done s fits) := by
  obtain ⟨stop, limit, stops⟩ := stopped
  rw [items]
  simp only [stops]
  exact ⟨stop, limit, rfl⟩

/-- What stops the value of the next member stops the members. -/
theorem members_stopped {escape : CodePoint → Text} (undone : IsUndone escape) {k body : Text}
    {done : Members} (fits : (memberText escape k body).length < n) (solid : skip body = body)
    (stopped : IsStopped (inner body)) :
    IsStopped (members inner n done (memberText escape k body) fits) := by
  obtain ⟨shorter, name⟩ := memberName_memberText undone k body
  have behind : IsStopped (inner (skip (.scalar ' ' :: body))) := by
    have blank : skip (.scalar ' ' :: body) = body := solid
    rwa [blank]
  obtain ⟨stop, limit, stops⟩ := behind
  rw [members]
  simp only [name, stops]
  exact ⟨stop, limit, rfl⟩

end Parts

/-! ## Integers -/

theorem unsigned?_ofNat_many (negative : Bool) {n : Nat}
    (many : ¬(Nat.toDigits 10 n).length ≤ digitLimit) {rest : Text} (closed : IsClosed rest) :
    unsigned? negative (Text.ofNat n ++ rest)
      = some (.error (.tooManyDigits (Text.ofNat n).length), rest) := by
  have decimals : fraction rest = ([], rest) := by
    apply fraction_none
    rintro c head rfl
    exact absurd (closed _ head) (by decide)
  have tooMany : digitLimit < (Text.ofNat n).length := by
    rw [Text.length_ofNat]
    omega
  simp [unsigned?, wholePart?_ofNat n closed.endsDigits, decimals, power_none closed, tooMany]

theorem atom?_ofInt_many {n : Int} (many : (int n).hasFewDigits = false) {rest : Text}
    (closed : IsClosed rest) :
    ∃ count, atom? (Text.ofInt n ++ rest) = some (.error (.tooManyDigits count), rest) := by
  simp only [hasFewDigits, decide_eq_false_iff_not] at many
  cases n with
  | ofNat n => exact ⟨_, atom?_eq_unsigned? (unsigned?_ofNat_many false many closed)⟩
  | negSucc n => exact ⟨_, atom?_eq_unsigned? (unsigned?_ofNat_many true (n := n + 1) many closed)⟩

/-- An integer with too many digits stops the reader. -/
theorem value_ofInt_stopped {n : Int} (many : (int n).hasFewDigits = false) (depth : Nat)
    {rest : Text} (closed : IsClosed rest) : IsStopped (value depth (Text.ofInt n ++ rest)) := by
  obtain ⟨count, stop⟩ := atom?_ofInt_many many closed
  obtain ⟨c, t, text, atomic⟩ := isAtomic_of_head (isAtomic_ofInt n) (ofInt_ne_nil n)
  rw [text, List.cons_append] at stop ⊢
  rw [value_eq_valueWith, valueWith.eq_6]
  · split
    · next none => exact absurd (none.symm.trans stop) (by simp)
    · next error =>
      obtain ⟨same, -⟩ := Prod.mk.inj (Option.some.inj (error.symm.trans stop))
      rw [Except.error.inj same]
      exact ⟨.tooManyDigits count, trivial, rfl⟩
    · next ok => exact absurd (ok.symm.trans stop) (by simp)
  all_goals
    rintro r same
    obtain rfl := (List.cons.inj same).1
    exact absurd atomic (by decide)

/-! ## Values -/

section

variable {l : Layout} (readable : l.IsReadable)

include readable

mutual

/-- Reading a printed value that does not fit stops at it or in it. -/
theorem value_print_stopped (level depth : Nat) (v : Json) (rest : Text)
    (misfit : ¬(v.nesting ≤ depth ∧ v.leaves.all hasFewDigits = true)) (closed : IsClosed rest) :
    IsStopped (value depth (print l level v ++ rest)) := by
  cases v with
  | int n =>
    have many : (int n).hasFewDigits = false := by
      rw [Bool.eq_false_iff]
      exact fun few => misfit ⟨Nat.zero_le depth, by simp [leaves, few]⟩
    rw [print]
    exact value_ofInt_stopped many depth closed
  | arr vs =>
    cases depth with
    | zero => cases vs <;> exact ⟨.tooDeep .array, trivial, rfl⟩
    | succ depth =>
      cases vs with
      | nil => exact absurd ⟨Nat.succ_le_succ (Nat.zero_le depth), rfl⟩ misfit
      | cons v vs =>
        simp only [leaves, leavesItems, nesting, nestingItems, List.all_append,
          Bool.and_eq_true] at misfit
        rw [print_arr_cons, List.cons_append, List.append_assoc, List.append_assoc, value]
        obtain ⟨fits, opened⟩ := valueWith_arr (value depth) (readable.edge (level + 1))
          (skip_print l (level + 1) v (printItems l level vs ++ rest))
          (head_append_print l (level + 1) v (printItems l level vs ++ rest))
        have closed' := isClosed_printItems readable level vs rest
        rw [opened]
        refine IsStopped.map ?_ _
        -- The first item stops the reader, or it is read and one behind it does.
        by_cases first : v.nesting ≤ depth ∧ v.leaves.all hasFewDigits = true
        · exact items_print_stopped level depth v.merged vs rest [] (fun others =>
            misfit ⟨by omega, first.2, others.2⟩) fits
            (value_print readable (level + 1) depth v _ first.2 first.1 closed')
        · exact items_stopped fits
            (value_print_stopped (level + 1) depth v _ first closed')
  | obj ms =>
    cases depth with
    | zero => cases ms <;> exact ⟨.tooDeep .object, trivial, rfl⟩
    | succ depth =>
      cases ms with
      | nil => exact absurd ⟨Nat.succ_le_succ (Nat.zero_le depth), rfl⟩ misfit
      | cons m ms =>
        obtain ⟨k, v⟩ := m
        simp only [leaves, leavesMembers, nesting, nestingMembers, List.all_append,
          Bool.and_eq_true] at misfit
        rw [print_obj_cons, List.cons_append, List.append_assoc, quote_append, memberText_append,
          List.append_assoc, value]
        obtain ⟨fits, opened⟩ := valueWith_obj (value depth) (readable.edge (level + 1))
          (skip_memberText l.escape k _) (head_memberText l.escape k _)
        have closed' := isClosed_printMembers readable level ms rest
        rw [opened]
        refine IsStopped.map ?_ _
        by_cases first : v.nesting ≤ depth ∧ v.leaves.all hasFewDigits = true
        · exact members_print_stopped level depth k v.merged ms rest [] (fun others =>
            misfit ⟨by omega, first.2, others.2⟩) fits (skip_print ..)
            (value_print readable (level + 1) depth v _ first.2 first.1 closed')
        · exact members_stopped readable.undone fits (skip_print ..)
            (value_print_stopped (level + 1) depth v _ first closed')
  | _ => exact absurd ⟨Nat.zero_le depth, rfl⟩ misfit

theorem items_print_stopped (level depth : Nat) (v : Json) (vs : List Json) (rest : Text) {s : Text}
    (done : List Json)
    (misfit : ¬(nestingItems vs ≤ depth ∧ (leavesItems vs).all hasFewDigits = true)) {n : Nat}
    (fits : s.length < n)
    (read : ∃ h, value depth s = .ok (v, ⟨printItems l level vs ++ rest, h⟩)) :
    IsStopped (items (value depth) n done s fits) := by
  obtain ⟨shorter, read⟩ := read
  cases vs with
  | nil => exact absurd ⟨Nat.zero_le depth, rfl⟩ misfit
  | cons w ws =>
    simp only [leavesItems, nestingItems, List.all_append, Bool.and_eq_true] at misfit
    obtain ⟨fits', step⟩ := items_more done fits shorter read
      (comma_printItems l level w ws rest)
      ((skip_append (readable.gap _) _).trans (skip_print ..))
    have closed := isClosed_printItems readable level ws rest
    rw [step]
    by_cases first : w.nesting ≤ depth ∧ w.leaves.all hasFewDigits = true
    · exact items_print_stopped level depth w.merged ws rest (v :: done) (fun others =>
        misfit ⟨by omega, first.2, others.2⟩) fits'
        (value_print readable (level + 1) depth w _ first.2 first.1 closed)
    · exact items_stopped fits' (value_print_stopped (level + 1) depth w _ first closed)

theorem members_print_stopped (level depth : Nat) (k : Text) (v : Json) (ms : Members) (rest : Text)
    {body : Text} (done : Members)
    (misfit : ¬(nestingMembers ms ≤ depth ∧ (leavesMembers ms).all hasFewDigits = true)) {n : Nat}
    (fits : (memberText l.escape k body).length < n) (solid : skip body = body)
    (read : ∃ h, value depth body = .ok (v, ⟨printMembers l level ms ++ rest, h⟩)) :
    IsStopped (members (value depth) n done (memberText l.escape k body) fits) := by
  obtain ⟨shorter, read⟩ := read
  cases ms with
  | nil => exact absurd ⟨Nat.zero_le depth, rfl⟩ misfit
  | cons m ms =>
    obtain ⟨k', w⟩ := m
    simp only [leavesMembers, nestingMembers, List.all_append, Bool.and_eq_true] at misfit
    obtain ⟨fits', step⟩ := members_more readable.undone done fits solid shorter read
      (comma_printMembers l level k' w ms rest)
      ((skip_append (readable.gap _) _).trans (skip_memberText ..))
    have closed := isClosed_printMembers readable level ms rest
    rw [step]
    by_cases first : w.nesting ≤ depth ∧ w.leaves.all hasFewDigits = true
    · exact members_print_stopped level depth k' w.merged ms rest _ (fun others =>
        misfit ⟨by omega, first.2, others.2⟩) fits' (skip_print ..)
        (value_print readable (level + 1) depth w _ first.2 first.1 closed)
    · exact members_stopped readable.undone fits' (skip_print ..)
        (value_print_stopped (level + 1) depth w _ first closed)

end

/-- What is printed of a value that does not fit the reader is refused for that. -/
theorem read_print_refused {room : Nat} {v : Json} (misfit : ¬v.FitsReader room) {blank : Text}
    (blanks : ∀ c ∈ blank, isGap c = true) :
    ∃ error, error.IsLimit ∧ read room (print l 0 v ++ blank) = .error error := by
  have stopped : IsStopped (value room (skip (print l 0 v ++ blank))) := by
    rw [skip_print]
    exact value_print_stopped readable 0 room v blank misfit (isClosed_of_blanks blanks)
  obtain ⟨stop, limit, stops⟩ := stopped
  have document : document room (print l 0 v ++ blank) = .error stop := by
    rw [document.eq_2 _ _ (print_append_ne_mark l v blank)]
    simp only [stops]
  cases stop with
  | malformed => exact limit.elim
  | tooDeep container => exact ⟨.tooDeep container, trivial, by rw [read, document]⟩
  | tooManyDigits count => exact ⟨.tooManyDigits (some count), trivial, by rw [read, document]⟩

/-- What is printed reads back, also with blanks behind it, if it fits the reader, and is refused
otherwise. -/
theorem readsAs_print_append {v : Json} (proper : v.isProper = true) {blank : Text}
    (blanks : ∀ c ∈ blank, isGap c = true) : ReadsAs (print l 0 v ++ blank) v :=
  ⟨fun _ fits => read_print readable proper fits.2 fits.1 blanks,
    fun _ misfit => read_print_refused readable misfit blanks⟩

theorem readsAs_print {v : Json} (proper : v.isProper = true) : ReadsAs (print l 0 v) v := by
  have reads := readsAs_print_append readable proper (List.forall_mem_nil _)
  rwa [List.append_nil] at reads

end

/-! ## What was read -/

theorem nesting_arr_le {vs : List Json} {n : Nat} (items : ∀ v ∈ vs, v.nesting ≤ n) :
    (arr vs).nesting ≤ n + 1 := by
  refine Nat.succ_le_succ ?_
  induction vs with
  | nil => exact Nat.zero_le n
  | cons v vs ih =>
    rw [List.forall_mem_cons] at items
    exact Nat.max_le.mpr ⟨items.1, ih items.2⟩

theorem nesting_obj_le {ms : Members} {n : Nat} (members : ∀ m ∈ ms, m.2.nesting ≤ n) :
    (obj ms).nesting ≤ n + 1 := by
  refine Nat.succ_le_succ ?_
  induction ms with
  | nil => exact Nat.zero_le n
  | cons m ms ih =>
    rw [List.forall_mem_cons] at members
    exact Nat.max_le.mpr ⟨members.1, ih members.2⟩

theorem holdsOfLeaves_nesting (n : Nat) : HoldsOfLeaves fun v => v.nesting ≤ n :=
  ⟨Nat.zero_le n, fun _ => Nat.zero_le n, fun _ _ => Nat.zero_le n, fun _ => Nat.zero_le n,
    fun _ => Nat.zero_le n⟩

/-- Containers are not nested deeper in what is read than the reader goes. -/
theorem nesting_of_value (depth : Nat) : Inner.Gives (value depth) fun v => v.nesting ≤ depth := by
  induction depth with
  | zero =>
    intro s v rest read
    rw [value] at read
    unfold valueWith at read
    split at read
    · split at read
      · exact absurd read (by simp)
      · obtain ⟨rfl, -⟩ := Prod.mk.inj (Except.ok.inj read)
        exact Nat.le_refl 0
    · exact absurd read (by simp)
    · exact absurd read (by simp)
    · split at read
      · exact absurd read (by simp)
      · exact absurd read (by simp)
      · next atom =>
        obtain ⟨rfl, -⟩ := Prod.mk.inj (Except.ok.inj read)
        exact holds_of_atom? (holdsOfLeaves_nesting 0) atom
  | succ depth ih =>
    intro s v rest read
    rw [value] at read
    have passes : Passes (fun v => v.nesting ≤ depth) fun v => v.nesting ≤ depth + 1 :=
      ⟨holdsOfLeaves_nesting _, nesting_arr_le, fun _ => nesting_obj_le⟩
    refine holds_of_valueWith passes (fun i member => ?_) read
    rw [← Option.some.inj member]
    exact ih

/-- What was read fits the reader, so it can be printed and read again. -/
theorem fitsReader_of_read {room : Nat} {t : Text} {v : Json} (ok : read room t = .ok v) :
    v.FitsReader room :=
  ⟨holds_of_gives (nesting_of_value room) ok, isWritable_of_read ok⟩

/-! ## Values of members -/

theorem nesting_le_of_mem {ms : Members} {m : Text × Json} (member : m ∈ ms) :
    m.2.nesting ≤ nestingMembers ms := by
  induction ms with
  | nil => exact absurd member List.not_mem_nil
  | cons n ms ih =>
    rw [nestingMembers]
    rcases List.mem_cons.mp member with rfl | member
    · exact Nat.le_max_left ..
    · exact Nat.le_trans (ih member) (Nat.le_max_right ..)

/-- If an object fits the reader, then so do the values of its members. -/
theorem FitsReader.of_find? {room : Nat} {ms : Members} (fits : (obj ms).FitsReader room)
    {key : Text} {v : Json} (found : Entries.find? key ms = some v) : v.FitsReader room := by
  have member := Entries.mem_of_find? found
  have shallow : nestingMembers ms + 1 ≤ room := fits.1
  have below : v.nesting ≤ nestingMembers ms := nesting_le_of_mem member
  exact ⟨by omega, isWritable_member fits.2 member⟩

end Grimoire.Json
