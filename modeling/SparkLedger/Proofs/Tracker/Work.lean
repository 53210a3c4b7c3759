import SparkLedger.Proofs.Dialogue
import SparkLedger.Tracker.Work

/-!
# The parts of a reconcile's conversation

Which question each read and write asks, and with which results it ends.

* `asks_getApplication`, `ends_getApplication` and the like: reads and creations ask one question.
* `asks_patchWith`, `ends_patchWith`: a change asks one question or none.
* `IsPatchOf`: the question that changes one pod into another.
* `asks_store`, `ends_store_ok`, `ends_store_error` and the like: the parts of `Work`.
-/

namespace SparkLedger

open Dialogue (Transcript Exchange asks_bind ends_bind)

namespace Tracker

variable {α : Type} {t : Transcript Tracking} {q : Tracking.Question}

/-! ## Reads and writes -/

/-- What is asked for a result whose errors are then named. -/
private theorem asks_mapError {d : Dialogue Tracking (Except Kube.Error α)} :
    (d >>= fun r => return r.mapError StoreError.ofKube).Asks t q ↔ d.Asks t q := by
  rw [Dialogue.bind_eq, asks_bind]
  constructor
  · rintro (h | ⟨_, _, _, _, _, h⟩)
    · exact h
    · exact h.elim
  · exact .inl

private theorem ends_mapError {d : Dialogue Tracking (Except Kube.Error α)}
    {r : Except StoreError α} :
    (d >>= fun r => return r.mapError StoreError.ofKube).Ends t r ↔
      ∃ a, d.Ends t a ∧ r = a.mapError .ofKube := by
  rw [Dialogue.bind_eq, ends_bind]
  constructor
  · rintro ⟨t₁, t₂, a, rfl, ha, rfl, rfl⟩
    exact ⟨a, by rwa [List.append_nil], rfl⟩
  · rintro ⟨a, ha, rfl⟩
    exact ⟨t, [], a, (List.append_nil t).symm, ha, rfl, rfl⟩

theorem ok_eq_mapError_iff {ε ε' : Type} {f : ε → ε'} {x : Except ε α} {a : α} :
    .ok a = x.mapError f ↔ x = .ok a := by
  cases x with
  | ok b => exact ⟨fun h => by cases h; rfl, fun h => by cases h; rfl⟩
  | error e => exact ⟨nofun, nofun⟩

theorem error_eq_mapError_iff {ε ε' : Type} {f : ε → ε'} {x : Except ε α} {e' : ε'} :
    .error e' = x.mapError f ↔ ∃ e, x = .error e ∧ e' = f e := by
  cases x with
  | ok b => exact ⟨nofun, nofun⟩
  | error e =>
    constructor
    · intro h
      cases h
      exact ⟨e, rfl, rfl⟩
    · rintro ⟨_, h, rfl⟩
      cases h
      rfl

variable {ns name : String}

theorem asks_getPod : (getPod ns name).Asks t q ↔ t = [] ∧ q = .getPod ns name :=
  asks_mapError.trans Dialogue.asks_question

theorem ends_getPod {r : Except StoreError (Option Pod)} :
    (getPod ns name).Ends t r ↔
      ∃ a : Except Kube.Error (Option Pod), t = [⟨.getPod ns name, a⟩] ∧ r = a.mapError .ofKube :=
  ends_mapError.trans (exists_congr fun _ => and_congr_left' Dialogue.ends_question)

theorem asks_getApplication :
    (getApplication ns name).Asks t q ↔ t = [] ∧ q = .getApplication ns name :=
  asks_mapError.trans Dialogue.asks_question

theorem ends_getApplication {r : Except StoreError (Option Application)} :
    (getApplication ns name).Ends t r ↔
      ∃ a : Except Kube.Error (Option Application), t = [⟨.getApplication ns name, a⟩] ∧
        r = a.mapError .ofKube :=
  ends_mapError.trans (exists_congr fun _ => and_congr_left' Dialogue.ends_question)

theorem asks_createApplication {application : Application} :
    (createApplication application).Asks t q ↔
      ∃ ns name, application.metadata.identity? = some (ns, name) ∧ t = [] ∧
        q = .createApplication ns application := by
  unfold createApplication
  cases application.metadata.identity? with
  | none => exact ⟨False.elim, fun ⟨_, _, h, _⟩ => nomatch h⟩
  | some place =>
    obtain ⟨ns, name⟩ := place
    refine (asks_mapError.trans Dialogue.asks_question).trans ⟨fun h => ⟨ns, name, rfl, h⟩, ?_⟩
    rintro ⟨_, _, h, ht⟩
    cases h
    exact ht

theorem ends_createApplication {application : Application} {r : Except StoreError Application} :
    (createApplication application).Ends t r ↔
      (application.metadata.identity? = none ∧ t = [] ∧ r = .error .missingMetadata) ∨
      ∃ ns name, ∃ a : Except Kube.Error Application,
        application.metadata.identity? = some (ns, name) ∧
        t = [⟨.createApplication ns application, a⟩] ∧ r = a.mapError .ofKube := by
  unfold createApplication
  cases application.metadata.identity? with
  | none => exact ⟨fun h => .inl ⟨rfl, h⟩, fun h => h.elim (·.2) fun ⟨_, _, _, h, _⟩ => nomatch h⟩
  | some place =>
    obtain ⟨ns, name⟩ := place
    refine ends_mapError.trans ⟨?_, ?_⟩
    · rintro ⟨a, ha, hr⟩
      exact .inr ⟨ns, name, a, rfl, Dialogue.ends_question.1 ha, hr⟩
    · rintro (⟨h, -⟩ | ⟨_, _, a, h, ha, hr⟩)
      · cases h
      · cases h
        exact ⟨a, Dialogue.ends_question.2 ha, hr⟩

section

open Object (Resource conditionalPatch?)

variable [Resource α] {old new : α}
  {send : String → String → Json → Dialogue Tracking (Except Kube.Error α)}

theorem asks_patchWith :
    (patchWith send old new).Asks t q ↔
      ∃ ns name p, (Resource.metadata old).identity? = some (ns, name) ∧
        conditionalPatch? old new = some p ∧ (send ns name p).Asks t q := by
  unfold patchWith
  cases (Resource.metadata old).identity? with
  | none => exact ⟨False.elim, fun ⟨_, _, _, h, _⟩ => nomatch h⟩
  | some place =>
    obtain ⟨ns, name⟩ := place
    cases conditionalPatch? old new with
    | none => exact ⟨False.elim, fun ⟨_, _, _, _, h, _⟩ => nomatch h⟩
    | some p =>
      refine asks_mapError.trans ⟨fun h => ⟨ns, name, p, rfl, rfl, h⟩, ?_⟩
      rintro ⟨_, _, _, hplace, hp, h⟩
      cases hplace
      cases hp
      exact h

theorem ends_patchWith {r : Except StoreError α} :
    (patchWith send old new).Ends t r ↔
      ((Resource.metadata old).identity? = none ∧ t = [] ∧ r = .error .missingMetadata) ∨
      (∃ ns name, (Resource.metadata old).identity? = some (ns, name) ∧
        conditionalPatch? old new = none ∧ t = [] ∧ r = .ok old) ∨
      ∃ ns name p a, (Resource.metadata old).identity? = some (ns, name) ∧
        conditionalPatch? old new = some p ∧ (send ns name p).Ends t a ∧
        r = a.mapError .ofKube := by
  unfold patchWith
  cases (Resource.metadata old).identity? with
  | none =>
    refine ⟨fun h => .inl ⟨rfl, h⟩, ?_⟩
    rintro (⟨-, h⟩ | ⟨_, _, h, _⟩ | ⟨_, _, _, _, h, _⟩)
    · exact h
    · cases h
    · cases h
  | some place =>
    obtain ⟨ns, name⟩ := place
    cases conditionalPatch? old new with
    | none =>
      refine ⟨fun h => .inr (.inl ⟨ns, name, rfl, rfl, h⟩), ?_⟩
      rintro (⟨h, _⟩ | ⟨_, _, _, _, h⟩ | ⟨_, _, _, _, _, h, _⟩)
      · cases h
      · exact h
      · cases h
    | some p =>
      refine ends_mapError.trans ⟨?_, ?_⟩
      · rintro ⟨a, ha, hr⟩
        exact .inr (.inr ⟨ns, name, p, a, rfl, rfl, ha, hr⟩)
      · rintro (⟨h, _⟩ | ⟨_, _, _, h, _⟩ | ⟨_, _, _, a, hplace, hp, ha, hr⟩)
        · cases h
        · cases h
        · cases hplace
          cases hp
          exact ⟨a, ha, hr⟩

/-- A change that succeeds was made, or there was nothing to change. -/
theorem ends_patchWith_ok {a : α} :
    (patchWith send old new).Ends t (.ok a) ↔
      ∃ ns name, (Resource.metadata old).identity? = some (ns, name) ∧
        ((conditionalPatch? old new = none ∧ t = [] ∧ a = old) ∨
          ∃ p, conditionalPatch? old new = some p ∧ (send ns name p).Ends t (.ok a)) := by
  refine ends_patchWith.trans ⟨?_, ?_⟩
  · rintro (⟨-, -, h⟩ | ⟨ns, name, hplace, hp, ht, h⟩ | ⟨ns, name, p, r, hplace, hp, hr, h⟩)
    · cases h
    · cases h
      exact ⟨ns, name, hplace, .inl ⟨hp, ht, rfl⟩⟩
    · cases ok_eq_mapError_iff.1 h
      exact ⟨ns, name, hplace, .inr ⟨p, hp, hr⟩⟩
  · rintro ⟨ns, name, hplace, ⟨hp, ht, rfl⟩ | ⟨p, hp, ht⟩⟩
    · exact .inr (.inl ⟨ns, name, hplace, hp, ht, rfl⟩)
    · exact .inr (.inr ⟨ns, name, p, .ok a, hplace, hp, ht, rfl⟩)

end

section

open Object (conditionalPatch?)

variable {old new : Application}

theorem asks_patchApplication :
    (patchApplication old new).Asks t q ↔
      ∃ ns name p, old.metadata.identity? = some (ns, name) ∧
        conditionalPatch? old new = some p ∧ t = [] ∧ q = .patchApplication ns name p :=
  asks_patchWith.trans (exists_congr fun _ => exists_congr fun _ => exists_congr fun _ =>
    and_congr_right' (and_congr_right' Dialogue.asks_question))

theorem ends_patchApplication_ok {a : Application} :
    (patchApplication old new).Ends t (.ok a) ↔
      ∃ ns name, old.metadata.identity? = some (ns, name) ∧
        ((conditionalPatch? old new = none ∧ t = [] ∧ a = old) ∨
          ∃ p, conditionalPatch? old new = some p ∧
            t = [⟨.patchApplication ns name p, (.ok a : Except Kube.Error Application)⟩]) :=
  ends_patchWith_ok.trans (exists_congr fun _ => exists_congr fun _ => and_congr_right' <|
    or_congr_right (exists_congr fun _ => and_congr_right' Dialogue.ends_question))

end

section

open Object (conditionalPatch?)

variable {old new : Pod}

/-- The question that changes one pod into another. -/
def IsPatchOf (old new : Pod) : Question → Prop
  | .patchPod ns name p =>
    old.metadata.identity? = some (ns, name) ∧ conditionalPatch? old new = some p
  | _ => False

theorem IsPatchOf.isWrite {q : Question} (h : IsPatchOf old new q) : q.isWrite = true := by
  cases q with
  | patchPod => rfl
  | _ => exact h.elim

theorem asks_patchPod : (patchPod old new).Asks t q ↔ t = [] ∧ IsPatchOf old new q := by
  refine asks_patchWith.trans ⟨?_, ?_⟩
  · rintro ⟨ns, name, p, hplace, hp, h⟩
    obtain ⟨rfl, rfl⟩ := Dialogue.asks_question.1 h
    exact ⟨rfl, hplace, hp⟩
  · rintro ⟨rfl, h⟩
    cases q with
    | patchPod ns name p => exact ⟨ns, name, p, h.1, h.2, .inl ⟨rfl, rfl⟩⟩
    | _ => exact h.elim

theorem ends_patchPod_ok {a : Pod} :
    (patchPod old new).Ends t (.ok a) ↔
      ∃ ns name, old.metadata.identity? = some (ns, name) ∧
        ((conditionalPatch? old new = none ∧ t = [] ∧ a = old) ∨
          ∃ p, conditionalPatch? old new = some p ∧
            t = [⟨.patchPod ns name p, (.ok a : Except Kube.Error Pod)⟩]) :=
  ends_patchWith_ok.trans (exists_congr fun _ => exists_congr fun _ => and_congr_right' <|
    or_congr_right (exists_congr fun _ => and_congr_right' Dialogue.ends_question))

end

/-! ## The parts of `Work` -/

namespace Work

section

variable {cause : StoreError → Error} {d : Dialogue Tracking (Except StoreError α)}

@[simp] theorem asks_store : (store cause d).run.Asks t q ↔ d.Asks t q := by
  refine asks_bind.trans ⟨?_, .inl⟩
  rintro (h | ⟨_, _, _, _, _, h⟩)
  · exact h
  · exact h.elim

private theorem ends_store {r : Except Error α} :
    (store cause d).run.Ends t r ↔ ∃ x, d.Ends t x ∧ r = x.mapError cause := by
  refine ends_bind.trans ⟨?_, ?_⟩
  · rintro ⟨t₁, t₂, x, rfl, hx, rfl, rfl⟩
    exact ⟨x, by rwa [List.append_nil], rfl⟩
  · rintro ⟨x, hx, rfl⟩
    exact ⟨t, [], x, (List.append_nil t).symm, hx, rfl, rfl⟩

@[simp] theorem ends_store_ok {a : α} :
    (store cause d).run.Ends t (.ok a) ↔ d.Ends t (.ok a) := by
  rw [ends_store]
  constructor
  · rintro ⟨x, hx, h⟩
    cases ok_eq_mapError_iff.1 h
    exact hx
  · exact fun h => ⟨_, h, rfl⟩

theorem ends_store_error {e : Error} :
    (store cause d).run.Ends t (.error e) ↔ ∃ s, d.Ends t (.error s) ∧ e = cause s := by
  rw [ends_store]
  constructor
  · rintro ⟨x, hx, h⟩
    obtain ⟨s, rfl, he⟩ := error_eq_mapError_iff.1 h
    exact ⟨s, hx, he⟩
  · rintro ⟨s, hs, rfl⟩
    exact ⟨_, hs, rfl⟩

end

/-! Log lines, guards and checked computations ask nothing. -/

section

variable {β : Type} {b : β}

theorem asks_log_bind {level : Log.Level} {text : String} {f : Unit → Work β} :
    (log level text >>= f).run.Asks t q ↔ (f ()).run.Asks t q := Iff.rfl

theorem ends_log_bind {level : Log.Level} {text : String} {f : Unit → Work β}
    {r : Except Error β} : (log level text >>= f).run.Ends t r ↔ (f ()).run.Ends t r := Iff.rfl

theorem asks_orFail_bind {e : Error} {o : Option α} {f : α → Work β} :
    (orFail e o >>= f).run.Asks t q ↔ ∃ a, o = some a ∧ (f a).run.Asks t q := by
  cases o with
  | none => exact ⟨False.elim, fun ⟨_, h, _⟩ => nomatch h⟩
  | some a => exact ⟨fun h => ⟨a, rfl, h⟩, fun ⟨_, h, h'⟩ => by cases h; exact h'⟩

theorem ends_orFail_bind_ok {e : Error} {o : Option α} {f : α → Work β} :
    (orFail e o >>= f).run.Ends t (.ok b) ↔ ∃ a, o = some a ∧ (f a).run.Ends t (.ok b) := by
  cases o with
  | none => exact ⟨nofun, fun ⟨_, h, _⟩ => nomatch h⟩
  | some a => exact ⟨fun h => ⟨a, rfl, h⟩, fun ⟨_, h, h'⟩ => by cases h; exact h'⟩

theorem asks_checked_bind {x : Except Overflow α} {f : α → Work β} :
    (checked x >>= f).run.Asks t q ↔ ∃ a, x = .ok a ∧ (f a).run.Asks t q := by
  cases x with
  | error o => exact ⟨False.elim, fun ⟨_, h, _⟩ => nomatch h⟩
  | ok a => exact ⟨fun h => ⟨a, rfl, h⟩, fun ⟨_, h, h'⟩ => by cases h; exact h'⟩

theorem ends_checked_bind {x : Except Overflow α} {f : α → Work β} {r : Except Error β} :
    (checked x >>= f).run.Ends t r ↔ ∃ a, x = .ok a ∧ (f a).run.Ends t r := by
  cases x with
  | error o => exact ⟨False.elim, fun ⟨_, h, _⟩ => nomatch h⟩
  | ok a => exact ⟨fun h => ⟨a, rfl, h⟩, fun ⟨_, h, h'⟩ => by cases h; exact h'⟩

end

variable {pod : Pod} {applicationId : String} {recorded : Option Ledger}

theorem asks_info :
    (info pod applicationId recorded).run.Asks t q ↔
      t = [] ∧ q = .info pod applicationId recorded :=
  Dialogue.asks_run_lift.trans Dialogue.asks_question

theorem ends_info {r : Except Error (Except Info.Error Info)} :
    (info pod applicationId recorded).run.Ends t r ↔
      ∃ a : Except Info.Error Info, t = [⟨.info pod applicationId recorded, a⟩] ∧ r = .ok a :=
  Dialogue.ends_run_lift.trans (exists_congr fun _ => and_congr_left' Dialogue.ends_question)

end Work

end Tracker

end SparkLedger
