import SparkLedger.Proofs.Tracker.Attempt

/-!
# What a reconcile is going to do

Once the pod and the record are read and the info is fetched, it is settled what a reconcile
writes: the record, an owner for the pod, and the end of its tracking.

* `Plan.of?`: the plan, unless the reconcile fails without one.
* `Plan.carriedOut`: what is left to be done then.
* `Server.Stops`: work that fails without having written anything.
* `Server.run_reconcileTracked`, `Server.stops_reconcileTracked`: a reconcile comes to its plan, or
  stops without one.
-/

namespace SparkLedger.Tracker

open Application (Spec)
open Dialogue (Transcript Exchange Ending)

/-- What a reconcile is going to do. -/
structure Plan where
  /-- The record that is to be stored, if any is. -/
  record : Option Application
  /-- Whether the record is to own the pod. -/
  owns : Bool
  outcome : Outcome

namespace Plan

/-! ## Plans -/

/-- The plan for an executor. -/
def ofExecutor? (pod : Pod) (existing : Option Application) : Option Plan := do
  let uid ← pod.metadata.uid
  let stored ← existing
  return ⟨some (stored.withExecutor uid pod), false, .noRequeue⟩

/-- A specification with the info on its application, and why there is none. -/
def informed? (spec : Spec) : Except Info.Error Info → Option (Spec × Option Info.Error)
  | .ok info => (spec.withInfo info).toOption.map (·, none)
  | .error error => some (spec, some error)

theorem informed?_ok_eq_some_iff {spec : Spec} {info : Info} {result : Spec × Option Info.Error} :
    informed? spec (.ok info) = some result ↔
      ∃ spec', spec.withInfo info = .ok spec' ∧ result = (spec', none) := by
  rw [informed?]
  cases spec.withInfo info with
  | error o => simp [Except.toOption]
  | ok s' => simp [Except.toOption, eq_comm]

/-- The info changes neither the driver nor the heritage. -/
theorem informed?_keeps {spec : Spec} {answer : Except Info.Error Info}
    {result : Spec × Option Info.Error} (h : informed? spec answer = some result) :
    result.1.driver = spec.driver ∧ result.1.heritage = spec.heritage := by
  cases answer with
  | error error => cases h; exact ⟨rfl, rfl⟩
  | ok info =>
    obtain ⟨spec', hspec, rfl⟩ := informed?_ok_eq_some_iff.1 h
    obtain ⟨_, -, rfl⟩ := Spec.withInfo_eq_ok_iff.1 hspec
    exact ⟨rfl, rfl⟩

/-- What a driver's reconcile leaves to be done, by why there is no info and by whether the driver
runs. -/
def driverOutcome (runningRequeue : Seconds) (pod : Pod) (failure : Option Info.Error)
    (running : Bool) : Outcome :=
  if !pod.isDeleting && retriesFetch failure running || running then .requeueAfter runningRequeue
  else .noRequeue

/-- The plan for a driver, given the record that it starts from. -/
def ofDriver? (info : Pod → String → Option Ledger → Option (Except Info.Error Info))
    (runningRequeue : Seconds) (pod : Pod) (applicationId name : String) (start : Application) :
    Option Plan := do
  let heritage ← start.spec.heritageWith? pod
  let answer ← info pod applicationId start.spec.stageLedger
  let (spec, failure) ← informed? (start.spec.withDriver pod heritage) answer
  return {
    record := some { start with spec := spec.named name }
    owns := heritage.allowsOwnership && !hasOwners pod
    outcome := driverOutcome runningRequeue pod failure (start.spec.driverSnapshot pod).isRunning }

/-- The plan for a pod that is to be recorded. -/
def ofRole? (info : Pod → String → Option Ledger → Option (Except Info.Error Info))
    (runningRequeue : Seconds) (pod : Pod) (applicationId : String)
    (existing : Option Application) : Pod.Role → Option Plan
  | .driver => do
    let (ns, name) ← pod.metadata.identity?
    ofDriver? info runningRequeue pod applicationId name
      (existing.getD (.template ns applicationId))
  | .executor => ofExecutor? pod existing

/-- The plan for a pod. One that goes with its record is only let go. -/
def of? (info : Pod → String → Option Ledger → Option (Except Info.Error Info))
    (runningRequeue : Seconds) (pod : Pod) (applicationId : String)
    (existing : Option Application) (role : Pod.Role) : Option Plan :=
  if existing.isNone && pod.isDeleting && goesWithRecord pod applicationId role then
    some ⟨none, false, .noRequeue⟩
  else ofRole? info runningRequeue pod applicationId existing role

section

variable {info : Pod → String → Option Ledger → Option (Except Info.Error Info)}
  {runningRequeue : Seconds} {pod : Pod} {applicationId name : String} {plan : Plan}

theorem ofExecutor?_eq_some_iff {existing : Option Application} :
    ofExecutor? pod existing = some plan ↔
      ∃ uid stored, pod.metadata.uid = some uid ∧ existing = some stored ∧
        plan = ⟨some (stored.withExecutor uid pod), false, .noRequeue⟩ := by
  simp only [ofExecutor?, Option.bind_eq_bind, Option.bind_eq_some_iff, Option.pure_def,
    Option.some.injEq]
  constructor
  · rintro ⟨uid, huid, stored, hstored, rfl⟩
    exact ⟨uid, stored, huid, hstored, rfl⟩
  · rintro ⟨uid, stored, huid, hstored, rfl⟩
    exact ⟨uid, huid, stored, hstored, rfl⟩

theorem ofDriver?_eq_some_iff {start : Application} :
    ofDriver? info runningRequeue pod applicationId name start = some plan ↔
      ∃ heritage answer spec failure, start.spec.heritageWith? pod = some heritage ∧
        info pod applicationId start.spec.stageLedger = some answer ∧
        informed? (start.spec.withDriver pod heritage) answer = some (spec, failure) ∧
        plan = {
          record := some { start with spec := spec.named name }
          owns := heritage.allowsOwnership && !hasOwners pod
          outcome := driverOutcome runningRequeue pod failure
            (start.spec.driverSnapshot pod).isRunning } := by
  simp only [ofDriver?, Option.bind_eq_bind, Option.bind_eq_some_iff, Option.pure_def,
    Option.some.injEq]
  constructor
  · rintro ⟨heritage, hheritage, answer, hanswer, ⟨spec, failure⟩, hinformed, rfl⟩
    exact ⟨heritage, answer, spec, failure, hheritage, hanswer, hinformed, rfl⟩
  · rintro ⟨heritage, answer, spec, failure, hheritage, hanswer, hinformed, rfl⟩
    exact ⟨heritage, hheritage, answer, hanswer, (spec, failure), hinformed, rfl⟩

end

/-! ## Carrying out a plan -/

variable (plan : Plan)

/-- Writes the record. -/
def recorded (existing : Option Application) : Work (Option Application) :=
  match plan.record with
  | some application => do return some (← writeApplication existing application)
  | none => return none

/-- Who is to own the pod, once the record is stored. -/
def owner? (stored : Option Application) : Option Object.OwnerReference :=
  if plan.owns then stored.bind (·.ownerReference?) else none

/-- Gives a pod an owner, if there is one. -/
def own (pod : Pod) : Option Object.OwnerReference → Work Pod
  | some reference =>
    .store .ownerReference (patchPod pod { pod with metadata.ownerReferences := some [reference] })
  | none => return pod

/-- Records the pod. The answer is the pod as it is stored then. -/
def tracked (pod : Pod) (existing : Option Application) : Work Pod := do
  let stored ← plan.recorded existing
  own pod (plan.owner? stored)

/-- Lets the pod go, if it is time. -/
def settle (pod : Pod) : Work Unit := do
  if pod.isDeleting && !plan.outcome.requestsRequeue then release pod

/-- Does what is planned. -/
def carriedOut (pod : Pod) (existing : Option Application) : Work Outcome := do
  let pod ← plan.tracked pod existing
  plan.settle pod
  return plan.outcome

end Plan

/-! ## Work that only reads -/

/-- None of these exchanges is a write. -/
def Reads (t : Transcript Tracking) : Prop := ∀ e ∈ t, e.question.isWrite = false

theorem Reads.nil : Reads [] := fun _ h => absurd h List.not_mem_nil

theorem Reads.singleton {e : Exchange Tracking} (h : e.question.isWrite = false) : Reads [e] :=
  fun _ he => List.mem_singleton.1 he ▸ h

theorem Reads.append {t t' : Transcript Tracking} (h : Reads t) (h' : Reads t') : Reads (t ++ t') :=
  fun e he => (List.mem_append.1 he).elim (h e) (h' e)

namespace Server

variable {S : Server} {s : Site} {α β : Type} {x : Work α} {f : α → Work β}

/-- The work does not end well, and does not write. -/
def Stops (S : Server) (x : Work α) (s : Site) : Prop :=
  ∃ r t, Reads t ∧ S.run x s = (r, s.hear t) ∧ ∀ a, r ≠ .done (.ok a)

theorem Stops.bind (h : S.Stops x s) : S.Stops (x >>= f) s := by
  obtain ⟨r, t, ht, hrun, hr⟩ := h
  obtain ⟨r', hrun', hr'⟩ := exists_run_bind hrun hr f
  exact ⟨r', t, ht, hrun', hr'⟩

theorem Stops.of_ok {a : α} {t : Transcript Tracking} (hx : S.run x s = (.done (.ok a), s.hear t))
    (ht : Reads t) (h : S.Stops (f a) (s.hear t)) : S.Stops (x >>= f) s := by
  obtain ⟨r, t', ht', hrun, hr⟩ := h
  refine ⟨r, t ++ t', ht.append ht', ?_, hr⟩
  rw [run_bind_of_ok hx, hrun, Site.hear_hear]

theorem Stops.of_run {r : Ending (Except Error α)} (hx : S.run x s = (r, s))
    (hne : ∀ a, r ≠ .done (.ok a)) : S.Stops x s :=
  ⟨r, [], .nil, by rw [hx, Site.hear_nil], hne⟩

theorem Stops.orFail {e : Error} {o : Option α} (h : ∀ a, o = some a → S.Stops (f a) s) :
    S.Stops (Work.orFail e o >>= f) s := by
  cases o with
  | none => exact (of_run (r := .done (.error e)) rfl fun _ h => by cases h).bind
  | some a => exact h a rfl

/-! ## Reconciles with a plan -/

variable {s₁ : Site} {pod : Pod} {applicationId : String} {existing : Option Application}
  {runningRequeue : Seconds}

/-- Work behind which there is only a log line. -/
private theorem run_bind_log (x : Work α) (level : Log.Level) (text : α → String) :
    S.run (x >>= fun a => Work.log level (text a) >>= fun _ => pure a) s = S.run x s := by
  rw [run_bind]
  rcases S.run x s with ⟨(e | a) | _ | o, s'⟩ <;> rfl

theorem run_ownDriver (heritage : Application.Heritage) (stored : Application) :
    S.run (ownDriver pod applicationId heritage stored) s =
      S.run (Plan.own pod (if heritage.allowsOwnership && !hasOwners pod
        then stored.ownerReference? else none)) s := by
  unfold ownDriver
  split
  · cases stored.ownerReference? with
    | some reference => exact run_bind_log ..
    | none => rfl
  · rfl

/-- The exchange in which the info is asked for. -/
def asked (pod : Pod) (applicationId : String) (recorded : Option Ledger)
    (answer : Except Info.Error Info) : Exchange Tracking :=
  ⟨.info pod applicationId recorded, answer⟩

theorem run_info (S : Server) (s : Site) (pod : Pod) (applicationId : String)
    (recorded : Option Ledger) : S.run (Work.info pod applicationId recorded) s =
      match S.info pod applicationId recorded with
      | some answer => (.done (.ok answer), s.hear [asked pod applicationId recorded answer])
      | none => (.stalled, s) := by
  refine (Dialogue.hold_ask S.environment (.info pod applicationId recorded) _ s).trans ?_
  have henv : S.environment.answer (.info pod applicationId recorded) s =
      match S.info pod applicationId recorded with
      | some a => (some a, s.tell ⟨.info pod applicationId recorded, a⟩ s.objects)
      | none => (none, s) := rfl
  rw [henv]
  cases S.info pod applicationId recorded <;> rfl

theorem run_recordInfo (spec : Spec) {answer : Except Info.Error Info}
    {result : Spec × Option Info.Error}
    (hinfo : S.info pod applicationId spec.stageLedger = some answer)
    (hresult : Plan.informed? spec answer = some result) :
    S.run (recordInfo pod applicationId spec) s =
      (.done (.ok result), s.hear [asked pod applicationId spec.stageLedger answer]) := by
  have hrun := run_info S s pod applicationId spec.stageLedger
  rw [hinfo] at hrun
  refine (run_bind_of_ok hrun).trans ?_
  cases answer with
  | ok info =>
    obtain ⟨spec', hspec, rfl⟩ := Plan.informed?_ok_eq_some_iff.1 hresult
    dsimp only
    rw [hspec]
    rfl
  | error error =>
    cases hresult
    rfl

theorem stops_recordInfo {spec : Spec}
    (hnone : (S.info pod applicationId spec.stageLedger).bind (Plan.informed? spec) = none) :
    S.Stops (recordInfo pod applicationId spec) s := by
  have hrun := run_info S s pod applicationId spec.stageLedger
  unfold recordInfo
  cases hinfo : S.info pod applicationId spec.stageLedger with
  | none =>
    rw [hinfo] at hrun
    exact (Stops.of_run (r := .stalled) hrun fun _ h => by cases h).bind
  | some answer =>
    rw [hinfo] at hrun hnone
    refine Stops.of_ok hrun (.singleton rfl) ?_
    cases answer with
    | ok info =>
      dsimp only
      cases hw : spec.withInfo info with
      | ok s' => simp [Plan.informed?, hw, Except.toOption] at hnone
      | error o => exact (Stops.of_run (r := .broken o) rfl fun _ h => by cases h).bind
    | error error => cases hnone

variable {plan : Plan} {role : Pod.Role}

/-- A pod is recorded, and the reconcile comes to its outcome. -/
private def trackedWith (plan : Plan) (pod : Pod) (existing : Option Application) :
    Work (Outcome × Pod) := do
  let pod ← plan.tracked pod existing
  return (plan.outcome, pod)

private theorem run_trackExecutor (hplan : Plan.ofExecutor? pod existing = some plan) :
    S.run (track runningRequeue pod applicationId existing .executor) s =
      S.run (trackedWith plan pod existing) s := by
  obtain ⟨uid, stored, huid, rfl, rfl⟩ := Plan.ofExecutor?_eq_some_iff.1 hplan
  simp only [track, trackExecutor, huid, Work.orFail, pure_bind, bind_assoc, trackedWith,
    Plan.tracked, Plan.recorded, Plan.owner?, Plan.own, writeApplication, Bool.false_eq_true,
    if_false]
  rfl

private theorem stops_trackExecutor (hnone : Plan.ofExecutor? pod existing = none) :
    S.Stops (track runningRequeue pod applicationId existing .executor) s := by
  refine Stops.bind ?_
  unfold trackExecutor
  refine Stops.orFail fun uid huid => Stops.orFail fun stored hstored => ?_
  simp [Plan.ofExecutor?, huid, hstored] at hnone

/-- What of a driver's reconcile is left to be done, its log aside. -/
private theorem run_recordDriver (applicationId : String) (a : Application)
    (heritage : Application.Heritage) (outcome : Outcome) :
    S.run (do
      let stored ← writeApplication existing a
      let pod' ← ownDriver pod applicationId heritage stored
      return (outcome, pod')) s =
    S.run (trackedWith ⟨some a, heritage.allowsOwnership && !hasOwners pod, outcome⟩ pod existing)
      s := by
  simp only [trackedWith, Plan.tracked, Plan.recorded, bind_assoc, pure_bind]
  rw [run_bind, run_bind]
  rcases S.run (writeApplication existing a) s with ⟨(e | stored) | _ | o, s'⟩
  · rfl
  · dsimp only
    rw [run_bind, run_ownDriver, run_bind]
    rfl
  · rfl
  · rfl

private theorem run_trackDriver {ns name : String}
    (hplace : pod.metadata.identity? = some (ns, name))
    (hplan : Plan.ofDriver? S.info runningRequeue pod applicationId name
      (existing.getD (.template ns applicationId)) = some plan) :
    ∃ t, Reads t ∧ S.run (track runningRequeue pod applicationId existing .driver) s =
      S.run (trackedWith plan pod existing) (s.hear t) := by
  obtain ⟨heritage, answer, spec, failure, hheritage, hinfo, hinformed, rfl⟩ :=
    Plan.ofDriver?_eq_some_iff.1 hplan
  let recorded := (existing.getD (.template ns applicationId)).spec.stageLedger
  refine ⟨[asked pod applicationId recorded answer], Reads.singleton rfl, ?_⟩
  simp only [track, trackDriver, hplace, hheritage, Work.orFail, pure_bind]
  let spec' := (existing.getD (.template ns applicationId)).spec.withDriver pod heritage
  refine (run_bind_of_ok (run_recordInfo spec' hinfo hinformed)).trans ?_
  refine Eq.trans ?_ (run_recordDriver applicationId _ heritage _)
  refine congrArg (S.run · _) (bind_congr fun stored => bind_congr fun pod' => ?_)
  rw [Plan.driverOutcome]
  split <;> rfl

private theorem stops_trackDriver {ns name : String}
    (hplace : pod.metadata.identity? = some (ns, name))
    (hnone : Plan.ofDriver? S.info runningRequeue pod applicationId name
      (existing.getD (.template ns applicationId)) = none) :
    S.Stops (track runningRequeue pod applicationId existing .driver) s := by
  unfold track trackDriver
  refine Stops.orFail fun place hplace' => Stops.orFail fun heritage hheritage => ?_
  cases hplace.symm.trans hplace'
  refine (stops_recordInfo (Option.eq_none_iff_forall_ne_some.2 fun result hresult => ?_)).bind
  obtain ⟨answer, hinfo, hinformed⟩ := Option.bind_eq_some_iff.1 hresult
  exact nomatch hnone.symm.trans <| Plan.ofDriver?_eq_some_iff.2
    ⟨heritage, answer, result.1, result.2, hheritage, hinfo, hinformed, rfl⟩

private theorem run_track {place : String × String} (hplace : pod.metadata.identity? = some place)
    (hplan : Plan.ofRole? S.info runningRequeue pod applicationId existing role = some plan) :
    ∃ t, Reads t ∧ S.run (track runningRequeue pod applicationId existing role) s =
      S.run (trackedWith plan pod existing) (s.hear t) := by
  cases role with
  | driver =>
    simp only [Plan.ofRole?, hplace, Option.bind_eq_bind, Option.bind_some] at hplan
    exact run_trackDriver hplace hplan
  | executor => exact ⟨[], .nil, by rw [Site.hear_nil, run_trackExecutor hplan]⟩

private theorem stops_track {place : String × String}
    (hplace : pod.metadata.identity? = some place)
    (hnone : Plan.ofRole? S.info runningRequeue pod applicationId existing role = none) :
    S.Stops (track runningRequeue pod applicationId existing role) s := by
  cases role with
  | driver =>
    simp only [Plan.ofRole?, hplace, Option.bind_eq_bind, Option.bind_some] at hnone
    exact stops_trackDriver hplace hnone
  | executor => exact stops_trackExecutor hnone

/-- A reconcile that has read the record comes to what is planned. -/
theorem run_reconcileTracked {ns name : String} {place : String × String}
    (hread : S.run (.store .store (getApplication ns applicationId)) s =
      (.done (.ok existing), s₁))
    (hplace : pod.metadata.identity? = some place)
    (hplan : Plan.of? S.info runningRequeue pod applicationId existing role = some plan) :
    ∃ t, Reads t ∧ S.run (reconcileTracked runningRequeue ns name pod applicationId role) s =
      S.run (plan.carriedOut pod existing) (s₁.hear t) := by
  unfold reconcileTracked
  rw [run_bind_of_ok hread]
  unfold Plan.of? at hplan
  split at hplan
  · rename_i hgone
    cases hplan
    refine ⟨[], .nil, ?_⟩
    rw [if_pos hgone, Site.hear_nil]
    have hdeleting : pod.isDeleting = true := by
      simp only [Bool.and_eq_true] at hgone
      exact hgone.1.2
    simp only [Plan.carriedOut, Plan.tracked, Plan.recorded, Plan.owner?, Plan.own, Plan.settle,
      Bool.false_eq_true, if_false, pure_bind, hdeleting, Outcome.requestsRequeue, Bool.not_false,
      Bool.and_self, if_true]
    rfl
  · rename_i hgone
    obtain ⟨t, ht, hrun⟩ := run_track hplace hplan
    refine ⟨t, ht, ?_⟩
    rw [if_neg hgone, run_bind, hrun, ← run_bind, trackedWith, bind_assoc, Plan.carriedOut,
      run_bind, run_bind]
    rcases S.run (plan.tracked pod existing) (s₁.hear t) with ⟨(e | pod') | _ | o, s₂⟩
    · rfl
    · simp only [pure_bind, Plan.settle]
      split
      · rw [run_bind, run_bind]
        rcases S.run (release pod') s₂ with ⟨(e | _) | _ | o, s₃⟩ <;> rfl
      · rfl
    · rfl
    · rfl

/-- A reconcile without a plan fails before it writes. -/
theorem stops_reconcileTracked {ns name : String} {place : String × String}
    {t : Transcript Tracking}
    (hread : S.run (.store .store (getApplication ns applicationId)) s =
      (.done (.ok existing), s.hear t)) (ht : Reads t)
    (hplace : pod.metadata.identity? = some place)
    (hnone : Plan.of? S.info runningRequeue pod applicationId existing role = none) :
    S.Stops (reconcileTracked runningRequeue ns name pod applicationId role) s := by
  unfold Plan.of? at hnone
  split at hnone
  · cases hnone
  · rename_i hgone
    refine Stops.of_ok hread ht ?_
    rw [if_neg hgone]
    exact (stops_track hplace hnone).bind

end Server

end SparkLedger.Tracker
