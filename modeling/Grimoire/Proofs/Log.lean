import Grimoire.Log
import Grimoire.Proofs.Json.Outcome

/-!
# Log lines

A value of the fields of a record can be written if it goes no deeper than the writer, if all its keys
have a text and if nothing in it refuses to be shown (`FieldValue.fault?_eq_none_iff`). A record is put
together in three steps: what is standard, the fields, and the text of the exception. Keys of another
kind may be written alike, and then the last one counts for whoever reads the line
(`LogRecord.putAll_written`). A record that can be written is written on one line, and the line is read
as the record (`LogRecord.line_exact`).
-/

namespace Grimoire

open Json Entries

/-! ## What can be written -/

/-- Whether a key has a text: it is of a kind that JSON has, and no integer with too many digits. -/
inductive FieldKey.IsWritable : FieldKey → Prop
  | text (t : Text) : IsWritable (.text t)
  | int {n : Int} (few : (Json.int n).hasFewDigits = true) : IsWritable (.int n)
  | float (x : Binary64) : IsWritable (.float x)
  | bool (b : Bool) : IsWritable (.bool b)
  | none : IsWritable .none

theorem FieldKey.fault?_eq_none_iff {k : FieldKey} : k.fault? = Option.none ↔ k.IsWritable := by
  constructor
  · intro free
    cases k with
    | text t => exact .text t
    | int n =>
      rw [fault?] at free
      split at free
      · next few => exact .int few
      · exact absurd free (by simp)
    | float x => exact .float x
    | bool b => exact .bool b
    | none => exact .none
    | other kind => exact absurd free (by simp [fault?])
  · rintro (_ | few)
    case int => rw [fault?, if_pos few]
    all_goals rfl

namespace FieldValue

/-- Whether a value can be written where `room` containers may still open. An object that is shown takes
the room of a container. Nothing holds itself. -/
inductive IsWritable : (room : Nat) → FieldValue → Prop
  | null {room : Nat} : IsWritable room null
  | bool {room : Nat} (b : Bool) : IsWritable room (bool b)
  | int {room : Nat} {n : Int} (few : (Json.int n).hasFewDigits = true) : IsWritable room (int n)
  | float {room : Nat} (x : Binary64) : IsWritable room (float x)
  | str {room : Nat} (t : Text) : IsWritable room (str t)
  | object {room : Nat} (t : Text) : IsWritable (room + 1) (object (.ok t))
  | list {room : Nat} {items : List FieldValue} (each : ∀ v ∈ items, IsWritable room v) :
      IsWritable (room + 1) (list items)
  | dict {room : Nat} {entries : List (FieldKey × FieldValue)}
      (keys : ∀ e ∈ entries, e.1.IsWritable) (values : ∀ e ∈ entries, IsWritable room e.2) :
      IsWritable (room + 1) (dict entries)

mutual

/-- Nothing keeps a value from being written just if it can be written. -/
theorem fault?_eq_none_iff {room : Nat} {v : FieldValue} :
    fault? room v = none ↔ IsWritable room v := by
  cases v with
  | null => exact ⟨fun _ => .null, fun _ => by cases room <;> rfl⟩
  | bool b => exact ⟨fun _ => .bool b, fun _ => by cases room <;> rfl⟩
  | float x => exact ⟨fun _ => .float x, fun _ => by cases room <;> rfl⟩
  | str t => exact ⟨fun _ => .str t, fun _ => by cases room <;> rfl⟩
  | int n =>
    rw [fault?]
    split
    · next few => exact ⟨fun _ => .int few, fun _ => rfl⟩
    · next many => exact ⟨fun none => absurd none (by simp), fun | .int few => absurd few many⟩
  | object shown =>
    cases shown with
    | error message => exact ⟨fun none => absurd none (by simp [fault?]), fun h => by cases h⟩
    | ok t =>
      cases room with
      | zero => exact ⟨fun none => absurd none (by simp [fault?]), fun h => by cases h⟩
      | succ room => exact ⟨fun _ => .object t, fun _ => rfl⟩
  | cycle => cases room <;>
      exact ⟨fun none => absurd none (by simp [fault?]), fun h => by cases h⟩
  | list items =>
    cases room with
    | zero => exact ⟨fun none => absurd none (by simp [fault?]), fun h => by cases h⟩
    | succ room =>
      rw [fault?, faultItems?_eq_none_iff]
      exact ⟨.list, fun | .list each => each⟩
  | dict entries =>
    cases room with
    | zero => exact ⟨fun none => absurd none (by simp [fault?]), fun h => by cases h⟩
    | succ room =>
      rw [fault?, faultEntries?_eq_none_iff]
      constructor
      · exact fun each => .dict (fun e member => (each e member).1) fun e member => (each e member).2
      · rintro (_ | _ | _ | _ | _ | _ | _ | ⟨keys, values⟩)
        exact fun e member => ⟨keys e member, values e member⟩

theorem faultItems?_eq_none_iff {room : Nat} {items : List FieldValue} :
    faultItems? room items = none ↔ ∀ v ∈ items, IsWritable room v := by
  cases items with
  | nil => exact ⟨fun _ => List.forall_mem_nil _, fun _ => rfl⟩
  | cons v rest =>
    rw [faultItems?, Option.or_eq_none_iff, fault?_eq_none_iff, faultItems?_eq_none_iff,
      List.forall_mem_cons]

theorem faultEntries?_eq_none_iff {room : Nat} {entries : List (FieldKey × FieldValue)} :
    faultEntries? room entries = none
      ↔ ∀ e ∈ entries, e.1.IsWritable ∧ IsWritable room e.2 := by
  cases entries with
  | nil => exact ⟨fun _ => List.forall_mem_nil _, fun _ => rfl⟩
  | cons e rest =>
    obtain ⟨k, v⟩ := e
    rw [faultEntries?, Option.or_eq_none_iff, Option.or_eq_none_iff, k.fault?_eq_none_iff,
      fault?_eq_none_iff, faultEntries?_eq_none_iff, List.forall_mem_cons, and_assoc]

end

theorem jsonItems_eq (items : List FieldValue) : jsonItems items = items.map json := by
  induction items with
  | nil => rfl
  | cons v items ih => exact congrArg (json v :: ·) ih

theorem jsonEntries_eq (entries : List (FieldKey × FieldValue)) :
    jsonEntries entries = entries.map fun e => (e.1.shown, e.2.json) := by
  induction entries with
  | nil => rfl
  | cons e entries ih => exact congrArg ((e.1.shown, e.2.json) :: ·) ih

/-- What can be written is not nested deeper than the writer goes, and no integer in it has too many
digits. -/
theorem IsWritable.fitsReader_json {room : Nat} {v : FieldValue} (writable : IsWritable room v) :
    v.json.FitsReader room := by
  induction writable with
  | null => exact ⟨Nat.zero_le _, rfl⟩
  | bool b => exact ⟨Nat.zero_le _, rfl⟩
  | int few => exact ⟨Nat.zero_le _, by simp [json, Json.isWritable, leaves, few]⟩
  | float x => exact ⟨Nat.zero_le _, rfl⟩
  | str t => exact ⟨Nat.zero_le _, rfl⟩
  | object t => exact ⟨Nat.zero_le _, rfl⟩
  | list each ih =>
    rw [json, jsonItems_eq]
    exact ⟨nesting_arr_le (List.forall_mem_map.mpr fun v member => (ih v member).1),
      isWritable_arr.mpr (List.forall_mem_map.mpr fun v member => (ih v member).2)⟩
  | dict keys values ih =>
    rw [json, jsonEntries_eq]
    exact ⟨nesting_obj_le (List.forall_mem_map.mpr fun e member => (ih e member).1),
      isWritable_obj.mpr (List.forall_mem_map.mpr fun e member => (ih e member).2)⟩

/-! ## Putting entries -/

/-- The keys of entries that are texts. -/
def textKeys (entries : List (FieldKey × FieldValue)) : List Text :=
  entries.filterMap fun e => e.1.text?

theorem text?_eq_some_iff {k : FieldKey} {t : Text} : k.text? = some t ↔ k = .text t := by
  cases k <;> simp [FieldKey.text?]

theorem mem_textKeys {entries : List (FieldKey × FieldValue)} {t : Text} :
    t ∈ textKeys entries ↔ ∃ e ∈ entries, e.1 = .text t := by
  simp only [textKeys, List.mem_filterMap, text?_eq_some_iff]

theorem textKeys_append (front back : List (FieldKey × FieldValue)) :
    textKeys (front ++ back) = textKeys front ++ textKeys back := List.filterMap_append

variable {k : FieldKey} {v : FieldValue} {P : List (FieldKey × FieldValue)}

/-- A key that is a text and is there keeps its place, and any other one goes to the end. -/
theorem put_cases (k : FieldKey) (v : FieldValue) {P : List (FieldKey × FieldValue)}
    (distinct : (textKeys P).Nodup) :
    (put k v P = P ++ [(k, v)] ∧ ∀ t, k = .text t → t ∉ textKeys P) ∨
    ∃ t front old back, k = .text t ∧ P = front ++ (k, old) :: back ∧
      put k v P = front ++ (k, v) :: back ∧ t ∉ textKeys front ∧ t ∉ textKeys back := by
  induction P with
  | nil => exact .inl ⟨rfl, fun _ _ => List.not_mem_nil⟩
  | cons e P ih =>
    obtain ⟨k', w⟩ := e
    rw [put]
    split
    · next same =>
      obtain ⟨rfl, isText⟩ := same
      obtain ⟨t, text⟩ := Option.isSome_iff_exists.mp isText
      obtain rfl := text?_eq_some_iff.mp text
      exact .inr ⟨t, [], w, P, rfl, rfl, rfl, List.not_mem_nil, (List.nodup_cons.mp distinct).1⟩
    · next other =>
      have apart : ∀ t, k = .text t → k' ≠ .text t := by
        rintro t rfl rfl
        exact other ⟨rfl, rfl⟩
      have split : textKeys ((k', w) :: P) = k'.text?.toList ++ textKeys P := by
        cases text : k'.text? <;> simp [textKeys, text]
      have fresh : ∀ t, k = .text t → t ∉ k'.text?.toList := by
        intro t same member
        exact apart t same (text?_eq_some_iff.mp (Option.mem_toList.mp member))
      rw [split, List.nodup_append] at distinct
      rcases ih distinct.2.1 with ⟨last, new⟩ | ⟨t, front, old, back, rfl, rfl, put, before, behind⟩
      · refine .inl ⟨by rw [last]; rfl, fun t same member => ?_⟩
        rw [split, List.mem_append] at member
        exact member.elim (fresh t same) (new t same)
      · refine .inr ⟨t, (k', w) :: front, old, back, rfl, rfl, by rw [put]; rfl, ?_, behind⟩
        have split' : textKeys ((k', w) :: front) = k'.text?.toList ++ textKeys front := by
          cases text : k'.text? <;> simp [textKeys, text]
        rw [split', List.mem_append]
        exact fun member => member.elim (fresh t rfl) before

theorem nodup_textKeys_put (distinct : (textKeys P).Nodup) : (textKeys (put k v P)).Nodup := by
  rcases put_cases k v distinct with ⟨last, new⟩ | ⟨t, front, old, back, rfl, rfl, put, -, -⟩
  · rw [last, textKeys_append, List.nodup_append]
    refine ⟨distinct, ?_, fun t member u last => ?_⟩
    · cases text : k.text? <;> simp [textKeys, text]
    · rintro rfl
      obtain ⟨e, single, same⟩ := mem_textKeys.mp last
      obtain rfl := List.mem_singleton.mp single
      exact new t same member
  · rw [put]
    rwa [textKeys_append] at distinct ⊢

/-- What is put is there, with all that is not under the same text. -/
theorem mem_put_iff (distinct : (textKeys P).Nodup) {e : FieldKey × FieldValue} :
    e ∈ put k v P ↔ e = (k, v) ∨ e ∈ P ∧ (e.1 = k → k.text? = none) := by
  rcases put_cases k v distinct with
    ⟨last, new⟩ | ⟨t, front, old, back, rfl, rfl, put, before, behind⟩
  · rw [last, List.mem_append, List.mem_singleton, or_comm]
    refine or_congr_right ⟨fun member => ⟨member, fun same => ?_⟩, fun h => h.1⟩
    rw [Option.eq_none_iff_forall_not_mem]
    intro t text
    have own := text?_eq_some_iff.mp text
    exact new t own (mem_textKeys.mpr ⟨e, member, same.trans own⟩)
  · have outside : ∀ {part : List (FieldKey × FieldValue)}, t ∉ textKeys part → e ∈ part →
        e.1 ≠ .text t := fun absent member same => absent (mem_textKeys.mpr ⟨e, member, same⟩)
    rw [put]
    simp only [List.mem_append, List.mem_cons, FieldKey.text?, reduceCtorEq, imp_false]
    constructor
    · rintro (member | rfl | member)
      · exact .inr ⟨.inl member, outside before member⟩
      · exact .inl rfl
      · exact .inr ⟨.inr (.inr member), outside behind member⟩
    · rintro (rfl | ⟨member | rfl | member, other⟩)
      · exact .inr (.inl rfl)
      · exact .inl member
      · exact absurd rfl other
      · exact .inr (.inr member)

/-! ## Entries as they are read -/

/-- An entry as it is read when it was written. -/
def written (e : FieldKey × FieldValue) : Text × Json := (e.1.shown, e.2.json.merged)

theorem merged_dict (P : List (FieldKey × FieldValue)) :
    (dict P).json.merged = .obj (putAll [] (P.map written)) := by
  have each : mergedMembers (jsonEntries P) = P.map written := by
    induction P with
    | nil => rfl
    | cons e P ih => exact congrArg (written e :: ·) ih
  rw [json, merged, each]

/-- The texts that keys of another kind never have. -/
def reserved : List Text := ["ts", "level", "name", "msg", "exc_info"]

/-- No key of another kind is written like a key that every record may have: what is written of a number
or a word is read as such. -/
theorem eq_text_of_shown (shown : k.shown ∈ reserved) : k = .text k.shown := by
  have noAtom : ∀ t ∈ reserved, atom? t = none := by decide
  have none := noAtom _ shown
  cases k with
  | text t => rfl
  | int n =>
    rw [FieldKey.shown, ← List.append_nil (Text.ofInt n)] at none
    cases few : (Json.int n).hasFewDigits with
    | true => exact absurd (none.symm.trans (atom?_ofInt few isClosed_nil)) (by simp)
    | false =>
      obtain ⟨count, some⟩ := atom?_ofInt_many few isClosed_nil
      exact absurd (none.symm.trans some) (by simp)
  | float x =>
    rw [FieldKey.shown, ← List.append_nil (floatText x)] at none
    exact absurd (none.symm.trans (atom?_floatText x isClosed_nil)) (by simp)
  | bool b => cases b <;> exact absurd shown (by decide)
  | none => exact absurd shown (by decide)
  | other kind => exact absurd (show ([] : Text) ∈ reserved from shown) (by decide)

end FieldValue

namespace Entries

variable {α : Type}

theorem put_put (key : Text) (old value : α) (entries : Entries α) :
    put key value (put key old entries) = put key value entries := by
  induction entries with
  | nil => simp [put]
  | cons e entries ih =>
    obtain ⟨k, v⟩ := e
    by_cases same : k = key
    · simp [put, same]
    · simp [put, same, ih]

/-- The value of a key that is there may be put before or after one under another key. -/
theorem put_comm {key other : Text} (apart : other ≠ key) {entries : Entries α}
    (there : key ∈ keys entries) (value w : α) :
    put key value (put other w entries) = put other w (put key value entries) := by
  induction entries with
  | nil => exact absurd there List.not_mem_nil
  | cons e entries ih =>
    obtain ⟨k, v⟩ := e
    by_cases same : k = key
    · subst same
      simp [put, Ne.symm apart]
    · have behind : key ∈ keys entries := by
        rcases List.mem_cons.mp there with first | behind
        · exact absurd first.symm same
        · exact behind
      by_cases same' : k = other
      · subst same'
        simp [put, apart]
      · simp [put, same, same', ih behind]

/-- What comes behind an entry with a key of its own may be put before the entry gets another value. -/
theorem putAll_replace {key : Text} {back : Entries α} (behind : key ∉ keys back) (front : Entries α)
    (old value : α) : putAll [] (front ++ (key, value) :: back)
      = put key value (putAll [] (front ++ (key, old) :: back)) := by
  induction back using List.reverseRecOn with
  | nil => rw [putAll_concat, putAll_concat, put_put]
  | append_singleton back e ih =>
    have all : keys (back ++ [e]) = keys back ++ [e.1] := List.map_append
    rw [all, List.mem_append, not_or, List.mem_singleton] at behind
    rw [← List.cons_append, ← List.append_assoc, putAll_concat, ih behind.1,
      ← List.cons_append, ← List.append_assoc, putAll_concat, put_comm (Ne.symm behind.2)]
    rw [(isFirstSeen_keys_putAll _).mem_iff]
    simp [keys]

end Entries

namespace FieldValue

variable {k : FieldKey} {v : FieldValue} {P : List (FieldKey × FieldValue)}

/-- Putting an entry and reading the whole comes to reading and putting the entry as it is read, unless
its text is there and a key of another kind is written alike. -/
theorem putAll_written_put (distinct : (textKeys P).Nodup)
    (alone : ∀ t ∈ textKeys P, k = .text t → t ∈ reserved) :
    putAll [] ((put k v P).map written)
      = Entries.put k.shown v.json.merged (putAll [] (P.map written)) := by
  rcases put_cases k v distinct with ⟨last, -⟩ | ⟨t, front, old, back, rfl, rfl, put, -, behind⟩
  · rw [last, List.map_append, List.map_singleton, putAll_concat]
    rfl
  · have known : t ∈ reserved := alone t (by simp [textKeys, FieldKey.text?]) rfl
    have absent : t ∉ keys (back.map written) := by
      intro member
      obtain ⟨m, read, same⟩ := List.mem_map.mp member
      obtain ⟨e, inside, rfl⟩ := List.mem_map.mp read
      have shown : e.1.shown = t := same
      have text := eq_text_of_shown (shown.symm ▸ known)
      exact behind (mem_textKeys.mpr ⟨e, inside, shown ▸ text⟩)
    rw [put, List.map_append, List.map_append, List.map_cons, List.map_cons]
    exact putAll_replace absent _ _ _

end FieldValue

namespace LogRecord

open FieldValue

variable (r : LogRecord)

/-! ## What a record brings -/

/-- The members that the fields of a record bring, as they are read when they were written. -/
def given : Members := r.fields.entries.map written

/-- The member that the exception of a record brings. -/
def raised : Members :=
  match r.exception with
  | none => []
  | some t => [("exc_info", .str t)]

/-- The members of a record, as they are read when it was written. -/
def members : Members := putAll [] (r.standard ++ r.given ++ r.raised)

/-- Whether a record can be written: the record is a container, and what its fields bring can be written
inside of it. The text of the exception takes the place of a field. -/
def IsWritable (room : Nat) : Prop :=
  ∃ inside, room = inside + 1 ∧
    ∀ e ∈ r.fields.entries, (e.1 = .text "exc_info" → r.exception = none) →
      e.1.IsWritable ∧ e.2.IsWritable inside

/-- The entries of a record when some fields have been put. -/
def described (entries : List (FieldKey × FieldValue)) : List (FieldKey × FieldValue) :=
  entries.foldl (fun done e => FieldValue.put e.1 e.2 done) (ofMembers r.standard)

theorem payload_eq : r.payload = match r.exception with
    | none => r.described r.fields.entries
    | some t => FieldValue.put (.text "exc_info") (.str t) (r.described r.fields.entries) := rfl

/-- What is standard has a text for each key and for each value. -/
theorem mem_standard {e : FieldKey × FieldValue} (member : e ∈ ofMembers r.standard) :
    ∃ key ∈ keys r.standard, ∃ t, e = (.text key, .str t) := by
  simp only [standard, ofMembers, ofJson, List.mem_cons, List.not_mem_nil, or_false] at member
  rcases member with rfl | rfl | rfl | rfl <;> exact ⟨_, by simp [standard, keys], _, rfl⟩

theorem written_standard : (ofMembers r.standard).map written = r.standard := rfl

/-- What is known of the entries of a record when some fields have been put: which ones they are, and how
they are read. -/
structure Describes (entries P : List (FieldKey × FieldValue)) : Prop where
  distinct : (textKeys P).Nodup
  mem_iff : ∀ e, e ∈ P ↔ e ∈ entries ∨ e ∈ ofMembers r.standard ∧ ∀ f ∈ entries, f.1 ≠ e.1
  read : putAll [] (P.map written) = putAll [] (r.standard ++ entries.map written)

variable {r} in
/-- One more field is put: under a new key it comes to the others, and under a standard one it takes the
place of what is standard. -/
theorem Describes.put {entries P : List (FieldKey × FieldValue)} {e : FieldKey × FieldValue}
    (before : r.Describes entries P) (fresh : ∀ f ∈ entries, f.1 = e.1 → e.1.text? = none) :
    r.Describes (entries ++ [e]) (FieldValue.put e.1 e.2 P) := by
  refine ⟨nodup_textKeys_put before.distinct, fun f => ?_, ?_⟩
  · rw [mem_put_iff before.distinct, before.mem_iff, List.mem_append, List.mem_singleton,
      List.forall_mem_append, List.forall_mem_singleton]
    constructor
    · rintro (rfl | ⟨member | ⟨standard, others⟩, other⟩)
      · exact .inl (.inr rfl)
      · exact .inl (.inl member)
      · refine .inr ⟨standard, others, fun same => ?_⟩
        obtain ⟨key, -, t, rfl⟩ := r.mem_standard standard
        exact absurd (other same.symm) (by simp [same, FieldKey.text?])
    · rintro ((member | rfl) | ⟨standard, others, other⟩)
      · exact .inr ⟨.inl member, fresh f member⟩
      · exact .inl rfl
      · exact .inr ⟨.inr ⟨standard, others⟩, fun same => absurd same.symm other⟩
  · rw [putAll_written_put before.distinct, before.read, List.map_append, List.map_singleton,
      ← List.append_assoc, putAll_concat]
    · rfl
    · intro t member text
      obtain ⟨f, inside, same⟩ := mem_textKeys.mp member
      rcases (before.mem_iff f).mp inside with given | ⟨standard, -⟩
      · exact absurd (fresh f given (same.trans text.symm)) (by simp [text, FieldKey.text?])
      · obtain ⟨key, known, u, rfl⟩ := r.mem_standard standard
        obtain rfl := FieldKey.text.inj same
        revert known
        rw [standard_keys]
        exact (by decide : ∀ key ∈ (["ts", "level", "name", "msg"] : List Text), key ∈ reserved) key

/-- The induction is on the fields that have been put, the last one at the end. -/
theorem describes_described {entries : List (FieldKey × FieldValue)}
    (distinct : (textKeys entries).Nodup) : r.Describes entries (r.described entries) := by
  induction entries using List.reverseRecOn with
  | nil =>
    have own : textKeys (r.described []) = keys r.standard := rfl
    refine ⟨by rw [own, standard_keys]; decide, ?_, ?_⟩
    · simp [described]
    · rw [described, List.foldl_nil, written_standard, List.map_nil, List.append_nil]
  | append_singleton entries e ih =>
    rw [textKeys_append, List.nodup_append] at distinct
    obtain ⟨distinct, -, apart⟩ := distinct
    have put : r.described (entries ++ [e]) = FieldValue.put e.1 e.2 (r.described entries) :=
      List.foldl_concat ..
    rw [put]
    refine (ih distinct).put fun f member same => ?_
    rw [Option.eq_none_iff_forall_not_mem]
    intro t text
    have own : t ∈ textKeys [e] := by
      simp [textKeys, Option.mem_def.mp text]
    have text := text?_eq_some_iff.mp text
    exact apart t (mem_textKeys.mpr ⟨f, member, same.trans text⟩) t own rfl

/-- What is written of a record is read as its members. -/
theorem putAll_written (distinct : (textKeys r.fields.entries).Nodup) :
    putAll [] (r.payload.map written) = r.members := by
  have describes := r.describes_described distinct
  rw [payload_eq, members, raised]
  cases r.exception with
  | none => rw [describes.read, List.append_nil, given]
  | some t =>
    rw [putAll_written_put describes.distinct, describes.read, putAll_concat, given]
    · rfl
    · rintro key - same
      rw [← FieldKey.text.inj same]
      decide

/-- Of all that a record holds, only what its fields bring may refuse to be written. -/
theorem isWritable_iff {room : Nat} (distinct : (textKeys r.fields.entries).Nodup) :
    (FieldValue.dict r.payload).IsWritable room ↔ r.IsWritable room := by
  have describes := r.describes_described distinct
  have plain {inside : Nat} {e : FieldKey × FieldValue} (standard : e ∈ ofMembers r.standard) :
      e.1.IsWritable ∧ e.2.IsWritable inside := by
    obtain ⟨key, -, t, rfl⟩ := r.mem_standard standard
    exact ⟨.text key, .str t⟩
  have inside {n : Nat} : (∀ e ∈ r.payload, e.1.IsWritable ∧ e.2.IsWritable n) ↔
      ∀ e ∈ r.fields.entries, (e.1 = .text "exc_info" → r.exception = none) →
        e.1.IsWritable ∧ e.2.IsWritable n := by
    rw [payload_eq]
    cases r.exception with
    | none =>
      constructor
      · exact fun each e member _ => each e ((describes.mem_iff e).mpr (.inl member))
      · intro each e member
        rcases (describes.mem_iff e).mp member with given | ⟨standard, -⟩
        · exact each e given fun _ => rfl
        · exact plain standard
    | some t =>
      constructor
      · intro each e member other
        refine each e ((mem_put_iff describes.distinct).mpr (.inr ⟨?_, fun same => ?_⟩))
        · exact (describes.mem_iff e).mpr (.inl member)
        · exact absurd (other same) (by simp)
      · intro each e member
        rcases (mem_put_iff describes.distinct).mp member with rfl | ⟨member, other⟩
        · exact ⟨.text _, .str t⟩
        · rcases (describes.mem_iff e).mp member with given | ⟨standard, -⟩
          · exact each e given fun same => absurd (other same) (by simp [FieldKey.text?])
          · exact plain standard
  constructor
  · intro writable
    cases writable with
    | dict keys values => exact ⟨_, rfl, inside.mp fun e member => ⟨keys e member, values e member⟩⟩
  · rintro ⟨n, rfl, each⟩
    have each := inside.mpr each
    exact .dict (fun e member => (each e member).1) fun e member => (each e member).2

/-! ## Keys and values -/

theorem keys_raised :
    keys r.raised = [] ∨ keys r.raised = (["exc_info"] : List Text) := by
  rw [raised]
  cases r.exception with
  | none => exact .inl rfl
  | some t => exact .inr rfl

theorem nodup_keys_raised : (keys r.raised).Nodup := by
  rcases r.keys_raised with none | one
  · simp [none]
  · simp [one]

theorem members_eq : r.members = putAll (putAll r.standard r.given) r.raised := by
  have first : putAll [] r.standard = r.standard := by
    refine (putAll_eq_append ?_).trans (List.nil_append _)
    rw [List.nil_append, standard_keys]
    decide
  rw [members, putAll_append, putAll_append, first]

/-- The standard keys come first, then the new ones of the fields, then that of the exception if the
fields do not have it. -/
theorem keys_members : ∃ news, keys r.members
      = keys r.standard ++ news ++ (keys r.raised).filter (· ∉ keys r.given) ∧
    IsFirstSeen news ((keys r.given).filter (· ∉ keys r.standard)) := by
  have apart : ∀ key ∈ keys r.raised, key ∉ keys r.standard := by
    rw [standard_keys]
    rcases r.keys_raised with none | one
    · simp [none]
    · rw [one]
      decide
  obtain ⟨news, all, seen⟩ := exists_keys_putAll r.standard r.given
  refine ⟨news, ?_, seen⟩
  rw [members_eq, keys_putAll _ r.nodup_keys_raised, all]
  congr 1
  refine List.filter_congr fun key member => ?_
  simp [apart key member, seen.mem_iff]

/-- The exception counts before the fields, and of the fields that are written alike the last one, before
what is standard. -/
theorem find?_members (key : Text) : find? key r.members
    = (find? key r.raised).or ((find? key r.given.reverse).or (find? key r.standard)) := by
  rw [members_eq, find?_putAll_of_nodup _ r.nodup_keys_raised, find?_putAll_reverse]

/-- A record whose fields take the place of the message, and whose exception that of a field that could
not be written. Two keys are written alike. -/
def sample : LogRecord where
  time := "2000-01-02T03:04:05+00:00"
  level := .warning
  source := "spellbook.storage"
  message := "first\nsecond"
  fields := .dict [(.int 2, .null), (.text "msg", .list [.object (.ok "it"), .float .nan]),
    (.text "exc_info", .cycle), (.text "2", .str "\x00\"")]
  exception := some "StorageError: first\r\nsecond"

example : keys sample.members = (["ts", "level", "name", "msg", "2", "exc_info"] : List Text) := by
  decide

end LogRecord

end Grimoire
