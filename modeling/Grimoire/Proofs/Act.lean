import Grimoire.Act

/-!
# Runs of acts

An act that runs to its end ran each of its parts to the end (`Act.run_bind_eq_ok`); one that fails,
failed in one of them (`Act.run_bind_eq_error`). Some acts only note what happens (`State.Logs`),
others read, ask and print, but neither change the disk nor draw identifiers (`Act.IsPassive`); what
follows an act does not show on the disk if it is of that kind (`Act.SameDisk.followed`). Acts that read
nothing but the disk give the same wherever they find the same disk (`Act.IsDiskOnly`).
-/

namespace Grimoire

/-- Whether two states differ in their logs only. -/
def State.Logs (s t : State) : Prop := ∃ log, t = { s with log }

namespace State.Logs

theorem refl (s : State) : Logs s s := ⟨s.log, rfl⟩

theorem trans {s t u : State} (first : Logs s t) (second : Logs t u) : Logs s u := by
  obtain ⟨log, rfl⟩ := first
  obtain ⟨log', rfl⟩ := second
  exact ⟨log', rfl⟩

theorem disk {s t : State} (logs : Logs s t) : t.disk = s.disk := by
  obtain ⟨log, rfl⟩ := logs
  rfl

theorem drawn {s t : State} (logs : Logs s t) : t.drawn = s.drawn := by
  obtain ⟨log, rfl⟩ := logs
  rfl

end State.Logs

namespace Act

variable {α β : Type} {env : Env} {s t : State}

theorem run_bind_eq_ok {act : Act α} {next : α → Act β} {b : β} :
    (act >>= next).run env s = (.ok b, t) ↔
      ∃ a u, act.run env s = (.ok a, u) ∧ (next a).run env u = (.ok b, t) := by
  rw [run_bind]
  rcases act.run env s with ⟨_ | a, u⟩
  · simp
  · constructor
    · exact fun h => ⟨a, u, rfl, h⟩
    · rintro ⟨a', u', same, h⟩
      obtain ⟨rfl, rfl⟩ : a = a' ∧ u = u' := by simpa using same
      exact h

theorem run_bind_eq_error {act : Act α} {next : α → Act β} {failure : Failure} :
    (act >>= next).run env s = (.error failure, t) ↔
      act.run env s = (.error failure, t) ∨
        ∃ a u, act.run env s = (.ok a, u) ∧ (next a).run env u = (.error failure, t) := by
  rw [run_bind]
  rcases act.run env s with ⟨_ | a, u⟩
  · simp
  · constructor
    · exact fun h => .inr ⟨a, u, rfl, h⟩
    · rintro (failed | ⟨a', u', same, h⟩)
      · exact absurd failed (by simp)
      · obtain ⟨rfl, rfl⟩ : a = a' ∧ u = u' := by simpa using same
        exact h

theorem run_eq_ok_of_isOk {act : Act α} (h : (act.run env s).1.isOk = true) :
    ∃ a t, act.run env s = (.ok a, t) := by
  rcases outcome : act.run env s with ⟨failure | a, t⟩ <;> rw [outcome] at h
  · exact absurd h (by simp [Except.isOk, Except.toBool])
  · exact ⟨a, t, rfl⟩

theorem run_eq_error_of_isOk {act : Act α} (h : (act.run env s).1.isOk = false) :
    ∃ failure t, act.run env s = (.error failure, t) := by
  rcases outcome : act.run env s with ⟨failure | a, t⟩ <;> rw [outcome] at h
  · exact ⟨failure, t, rfl⟩
  · exact absurd h (by simp [Except.isOk, Except.toBool])

theorem run_ofExcept (x : Except Failure α) : (ofExcept x).run env s = (x, s) := by
  cases x <;> rfl

theorem run_env : Act.env.run env s = (.ok env, s) := rfl

theorem run_state : state.run env s = (.ok s, s) := rfl

theorem run_drawId :
    drawId.run env s = (.ok (env.freshId (s.drawn + 1)), { s with drawn := s.drawn + 1 }) := rfl

theorem run_makeFolders (p : Path) :
    (makeFolders p).run env s
      = (((s.disk.makeFolders env.here p.anchor p.names.reverse).1.mapError Failure.disk),
        { s with disk := (s.disk.makeFolders env.here p.anchor p.names.reverse).2 }) := by
  simp only [run, makeFolders]
  rcases s.disk.makeFolders env.here p.anchor p.names.reverse with ⟨_ | _, disk⟩ <;> rfl

theorem run_ask (question : Disk → Route → Except DiskError α) :
    (ask question).run env s = ((question s.disk env.here).mapError Failure.disk, s) := by
  simp only [run, ask]
  cases question s.disk env.here <;> rfl

theorem run_change_eq_ok {step : Disk → Route → Except DiskError Disk} :
    (change step).run env s = (.ok (), t) ↔
      ∃ disk, step s.disk env.here = .ok disk ∧ t = { s with disk } := by
  simp only [run, change]
  cases step s.disk env.here <;> simp [eq_comm]

theorem run_change_eq_error {step : Disk → Route → Except DiskError Disk} {failure : Failure}
    (h : (change step).run env s = (.error failure, t)) : t = s := by
  simp only [run, change] at h
  cases stepped : step s.disk env.here with
  | ok disk => simp [stepped] at h
  | error e => simpa [stepped, eq_comm] using (Prod.mk.inj h).2

theorem run_encode_eq_ok {text : Text} {bytes : Bytes} :
    (encode text).run env s = (.ok bytes, t) ↔ Utf8.encode text = some bytes ∧ t = s := by
  unfold encode
  cases Utf8.encode text with
  | none => simp [run_throw]
  | some b => simp [run_pure, eq_comm]

theorem run_encode_eq_error {text : Text} {failure : Failure}
    (h : (encode text).run env s = (.error failure, t)) : t = s := by
  unfold encode at h
  cases encoded : Utf8.encode text with
  | none => simpa [encoded, run_throw, eq_comm] using (Prod.mk.inj (encoded ▸ h)).2
  | some b => exact absurd (encoded ▸ h) (by simp [run_pure])

/-- What can be encoded is printed. -/
theorem run_print {text : Text} (encodable : text.isEncodable = true) (env : Env) (s : State) :
    (print text).run env s = (.ok (), { s with output := s.output ++ text }) := by
  obtain ⟨bytes, encoded⟩ :=
    Option.isSome_iff_exists.mp ((Utf8.isSome_encode text).trans encodable)
  have encodes : (encode text).run env s = (.ok bytes, s) := run_encode_eq_ok.mpr ⟨encoded, rfl⟩
  have discards : (discard (encode text)).run env s = (.ok (), s) :=
    run_bind_eq_ok.mpr ⟨bytes, s, encodes, rfl⟩
  rw [print, run_bind, discards]
  rfl

theorem run_orRemove (r : Route) (act : Act α) :
    (orRemove r act).run env s = match act.run env s with
      | (.ok a, t) => (.ok a, t)
      | (.error failure, t) => (.error failure, { t with disk := t.disk.removeTree r }) := by
  change (match act.run env s with
    | (.ok a, t) => (Except.ok a, t)
    | (.error failure, t) => (removeTree r >>= fun _ => throw failure : Act α).run env t) = _
  rcases act.run env s with ⟨_ | a, u⟩ <;> rfl

theorem run_orRemove_eq_ok {r : Route} {act : Act α} {a : α} :
    (orRemove r act).run env s = (.ok a, t) ↔ act.run env s = (.ok a, t) := by
  rw [run_orRemove]
  rcases act.run env s with ⟨_ | b, u⟩ <;> simp

theorem run_orRemove_eq_error {r : Route} {act : Act α} {failure : Failure} :
    (orRemove r act).run env s = (.error failure, t) ↔
      ∃ u, act.run env s = (.error failure, u) ∧ t = { u with disk := u.disk.removeTree r } := by
  rw [run_orRemove]
  rcases act.run env s with ⟨other | b, u⟩
  · constructor
    · intro h
      obtain ⟨same, rfl⟩ := Prod.mk.inj h
      exact ⟨u, by rw [same], rfl⟩
    · rintro ⟨u', same, rfl⟩
      obtain ⟨rfl, rfl⟩ : other = failure ∧ u = u' := by simpa using same
      rfl
  · simp

/-! ## Passive acts -/

/-- Whether an act leaves the disk and the count of identifiers as they are, whether it fails or
not. -/
def IsPassive (act : Act α) : Prop :=
  ∀ env s, (act.run env s).2.disk = s.disk ∧ (act.run env s).2.drawn = s.drawn

/-- Whether two acts leave the same disk. -/
def SameDisk (act : Act α) (other : Act β) : Prop :=
  ∀ env s, (act.run env s).2.disk = (other.run env s).2.disk

namespace IsPassive

protected theorem pure (a : α) : IsPassive (pure a) := fun _ _ => ⟨rfl, rfl⟩

protected theorem throw (failure : Failure) : IsPassive (throw failure : Act α) :=
  fun _ _ => ⟨rfl, rfl⟩

protected theorem bind {act : Act α} {next : α → Act β} (first : IsPassive act)
    (rest : ∀ a, IsPassive (next a)) : IsPassive (act >>= next) := by
  intro env s
  have kept := first env s
  rw [run_bind]
  rcases outcome : act.run env s with ⟨_ | a, t⟩ <;> rw [outcome] at kept
  · exact kept
  · exact ⟨(rest a env t).1.trans kept.1, (rest a env t).2.trans kept.2⟩

protected theorem ofExcept (x : Except Failure α) : IsPassive (ofExcept x) := by
  cases x <;> exact fun _ _ => ⟨rfl, rfl⟩

protected theorem readEnv : IsPassive Act.env := fun _ _ => ⟨rfl, rfl⟩

protected theorem state : IsPassive Act.state := fun _ _ => ⟨rfl, rfl⟩

protected theorem note (level : Level) (part : Part) (message : Text) (fields : Members) :
    IsPassive (note level part message fields) := fun _ _ => ⟨rfl, rfl⟩

protected theorem takeInput : IsPassive takeInput := fun _ _ => ⟨rfl, rfl⟩

protected theorem encode (t : Text) : IsPassive (encode t) := by
  unfold Act.encode
  split
  · exact .pure _
  · exact .throw _

protected theorem print (t : Text) : IsPassive (print t) :=
  ((IsPassive.encode t).bind fun _ => .pure _).bind fun _ _ _ => ⟨rfl, rfl⟩

protected theorem forM {items : List β} {f : β → Act Unit} (each : ∀ item, IsPassive (f item)) :
    IsPassive (items.forM f) := by
  induction items with
  | nil => exact .pure _
  | cons item items ih => exact (each item).bind fun _ => ih

end IsPassive

namespace SameDisk

theorem trans {γ : Type} {act : Act α} {other : Act β} {last : Act γ} (first : SameDisk act other)
    (rest : SameDisk other last) : SameDisk act last :=
  fun env s => (first env s).trans (rest env s)

theorem bind {γ : Type} {act : Act α} {next : α → Act β} {other : α → Act γ}
    (rest : ∀ a, SameDisk (next a) (other a)) : SameDisk (act >>= next) (act >>= other) := by
  intro env s
  rw [run_bind, run_bind]
  rcases act.run env s with ⟨_ | a, t⟩
  · rfl
  · exact rest a env t

/-- What is passive may follow. -/
theorem followed {act : Act α} {next : α → Act β} (rest : ∀ a, IsPassive (next a)) :
    SameDisk (act >>= next) act := by
  intro env s
  rw [run_bind]
  rcases act.run env s with ⟨_ | a, t⟩
  · rfl
  · exact (rest a env t).1

end SameDisk

/-! ## Acts that read the disk only -/

/-- Whether the outcome of an act and the disk that it leaves follow from the disk that it finds. -/
def IsDiskOnly (act : Act α) : Prop :=
  ∀ env s t, s.disk = t.disk →
    (act.run env s).1 = (act.run env t).1 ∧ (act.run env s).2.disk = (act.run env t).2.disk

namespace IsDiskOnly

protected theorem pure (a : α) : IsDiskOnly (pure a) := fun _ _ _ same => ⟨rfl, same⟩

protected theorem ofExcept (x : Except Failure α) : IsDiskOnly (ofExcept x) := by
  cases x <;> exact fun _ _ _ same => ⟨rfl, same⟩

protected theorem bind {act : Act α} {next : α → Act β} (first : IsDiskOnly act)
    (rest : ∀ a, IsDiskOnly (next a)) : IsDiskOnly (act >>= next) := by
  intro env s t same
  obtain ⟨outcome, disk⟩ := first env s t same
  rw [run_bind, run_bind]
  rcases run : act.run env s with ⟨failure | a, u⟩ <;>
    rcases run' : act.run env t with ⟨failure' | a', u'⟩ <;> rw [run, run'] at outcome disk
  · exact ⟨congrArg Except.error (Except.error.inj outcome), disk⟩
  · exact absurd outcome (by simp)
  · exact absurd outcome (by simp)
  · obtain rfl := Except.ok.inj outcome
    exact rest a env u u' disk

protected theorem readEnv : IsDiskOnly Act.env := fun _ _ _ same => ⟨rfl, same⟩

protected theorem note (level : Level) (part : Part) (message : Text) (fields : Members) :
    IsDiskOnly (note level part message fields) := fun _ _ _ same => ⟨rfl, same⟩

protected theorem encode (t : Text) : IsDiskOnly (encode t) := by
  unfold Act.encode
  cases Utf8.encode t <;> exact fun _ _ _ same => ⟨rfl, same⟩

protected theorem place (r : Route) (entry : Entry) : IsDiskOnly (place r entry) :=
  fun _ _ _ same => ⟨rfl, congrArg (·.put r entry) same⟩

protected theorem change (step : Disk → Route → Except DiskError Disk) :
    IsDiskOnly (change step) := by
  intro env s t same
  simp only [run, change, same]
  cases step t.disk env.here <;> exact ⟨rfl, by simp [same]⟩

protected theorem makeFolders (p : Path) : IsDiskOnly (makeFolders p) := by
  intro env s t same
  rw [run_makeFolders, run_makeFolders, same]
  exact ⟨rfl, rfl⟩

/-- What is read of the state may be the disk. -/
protected theorem readDisk {next : State → Act α} (rest : ∀ s, IsDiskOnly (next s))
    (disk : ∀ s t, s.disk = t.disk → next s = next t) : IsDiskOnly (state >>= next) := by
  intro env s t same
  rw [run_bind, run_bind, run_state, run_state]
  dsimp only
  rw [disk s t same]
  exact rest t env s t same

protected theorem orRemove (r : Route) {act : Act α} (first : IsDiskOnly act) :
    IsDiskOnly (orRemove r act) := by
  intro env s t same
  obtain ⟨outcome, disk⟩ := first env s t same
  rw [run_orRemove, run_orRemove]
  rcases run : act.run env s with ⟨failure | a, u⟩ <;>
    rcases run' : act.run env t with ⟨failure' | a', u'⟩ <;> rw [run, run'] at outcome disk
  · exact ⟨congrArg Except.error (Except.error.inj outcome), congrArg (·.removeTree r) disk⟩
  · exact absurd outcome (by simp)
  · exact absurd outcome (by simp)
  · exact ⟨outcome, disk⟩

end IsDiskOnly

end Act

end Grimoire
