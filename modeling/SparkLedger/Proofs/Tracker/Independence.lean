import SparkLedger.Proofs.Tracker.Undisturbed

/-!
# Reconciles of different applications

A server that looks after each object by itself: the version and the uid that an object is given
are a matter of this object. As a reconcile is only about its pod and the record of the pod's
application, reconciles of pods of different applications have nothing to do with each other.

* `Registry`: the server. `Registry.reply`: what it makes of one object.
* `reconciles_commute`: two reconciles come to the same in either order.
-/

namespace SparkLedger.Tracker

open Dialogue (Environment Ending)
open Cluster (isStale metadataText? withMetadata)
open Info (Sources)

/-! ## What is stored -/

namespace Objects

/-- Stores an object in a place, or nothing. -/
def set (o : Objects) : Place → Option Json → Objects
  | .pod place, j => { o with pods := Function.update o.pods place j }
  | .record place, j => { o with records := Function.update o.records place j }

theorem at?_set_self (o : Objects) (place : Place) (j : Option Json) :
    (o.set place j).at? place = j := by
  cases place <;> exact Function.update_self ..

theorem at?_set_of_ne {o : Objects} {place place' : Place} {j : Option Json} (h : place' ≠ place) :
    (o.set place j).at? place' = o.at? place' := by
  cases place <;> cases place' <;> simp_all [set, at?, Function.update_of_ne]

theorem set_at? (o : Objects) (place : Place) : o.set place (o.at? place) = o := by
  cases place <;> exact Objects.ext (by simp [set, at?]) (by simp [set, at?])

theorem ext_at? {o o' : Objects} (h : o.at? = o'.at?) : o = o' :=
  Objects.ext (funext fun place => congrFun h (.pod place))
    (funext fun place => congrFun h (.record place))

end Objects

/-! ## Registries -/

/-- How the objects of a server are looked after. -/
structure Registry where
  /-- The version of an object that is stored in place of what is there. -/
  version : Place → Option Json → String
  /-- The uid of a record that is created. -/
  uid : Place → String
  /-- The info on the application of a driver, unless it never comes. -/
  info : Pod → String → Option Ledger → Option (Except Info.Error Info)

namespace Registry

variable (R : Registry)

/-- What a patch makes of an object. -/
def patched (place : Place) (p : Json) : Option Json → Except Kube.Error Json
  | none => .error notFound
  | some j =>
    if isStale p j then .error outdated
    else .ok (withMetadata "resourceVersion" (R.version place (some j)) (p.merge j))

/-- What is stored for a new record. -/
def created (place : Place) (application : Application) : Option Json → Except Kube.Error Json :=
  Server.created (R.version place none) (R.uid place) application

/-- The answer to a write, and what is stored afterwards: what the write comes to, or what was
there. -/
def written {α : Type} (read : Json → Option α) (stored : Option Json) :
    Except Kube.Error Json → Option (Except Kube.Error α) × Option Json
  | .ok j => (some (shown read j), some j)
  | .error error => (some (.error error), stored)

/-- The answer to a question about an object, and the object afterwards. -/
def reply : (q : Question) → Option Json → Option q.Answer × Option Json
  | .getPod .., stored => (some (sought Pod.ofJson? stored), stored)
  | .patchPod ns name p, stored =>
    written Pod.ofJson? stored (R.patched (.pod (ns, name)) p stored)
  | .getApplication .., stored => (some (sought Application.ofJson? stored), stored)
  | .createApplication ns application, stored =>
    written Application.ofJson? stored
      (R.created (.record (ns, application.metadata.name.getD "")) application stored)
  | .patchApplication ns name p, stored =>
    written Application.ofJson? stored (R.patched (.record (ns, name)) p stored)
  | .info driver applicationId recorded, stored => (R.info driver applicationId recorded, stored)

/-- Answers a question. -/
def answer (q : Question) (o : Objects) : Option q.Answer × Objects :=
  match q.place? with
  | none => ((R.reply q none).1, o)
  | some place => ((R.reply q (o.at? place)).1, o.set place (R.reply q (o.at? place)).2)

/-- The server and its log, which is not kept. -/
def environment : Environment Tracking Objects where
  answer := R.answer
  note _ o := o

/-- Does work with the server. -/
def run {α : Type} (x : Work α) (o : Objects) : Ending (Except Error α) × Objects :=
  x.run.hold R.environment o

variable {R}

theorem answer_of_place {q : Question} {place : Place} (h : q.place? = some place) (o : Objects) :
    R.answer q o = ((R.reply q (o.at? place)).1, o.set place (R.reply q (o.at? place)).2) := by
  rw [answer, h]

theorem answer_of_none {q : Question} (h : q.place? = none) (o : Objects) :
    R.answer q o = ((R.reply q none).1, o) := by
  rw [answer, h]

/-- The answer to a question is a matter of the object that it is about. -/
theorem local_environment (R : Registry) :
    R.environment.Local Objects.at? Question.place? where
  note _ _ := rfl
  answer_eq q o o' hsame := by
    change (R.answer q o).1 = (R.answer q o').1 ∧
      ∀ i, q.place? = some i → (R.answer q o).2.at? i = (R.answer q o').2.at? i
    cases hplace : q.place? with
    | none =>
      rw [answer_of_none hplace, answer_of_none hplace]
      exact ⟨rfl, fun _ h => by cases h⟩
    | some place =>
      rw [answer_of_place hplace, answer_of_place hplace, hsame place hplace]
      refine ⟨rfl, fun i hi => ?_⟩
      obtain rfl := Option.some.inj hi
      rw [Objects.at?_set_self, Objects.at?_set_self]
  frame q o i hi := by
    change (R.answer q o).2.at? i = o.at? i
    cases hplace : q.place? with
    | none => rw [answer_of_none hplace]
    | some place =>
      rw [answer_of_place hplace]
      refine Objects.at?_set_of_ne ?_
      rintro rfl
      exact hi hplace

/-- A request that fits is served. -/
theorem served {q : Question} {a : q.Answer} {o o' : Objects} (hapt : Apt o q)
    (h : R.answer q o = (some a, o')) : Served o q a o' := by
  cases q with
  | getPod ns name =>
    rw [answer_of_place rfl] at h
    cases h
    rw [reply, Objects.set_at?]
    exact .getPod ns name
  | patchPod ns name p =>
    obtain ⟨j, hj, hstale⟩ := hapt
    have hat : o.at? (.pod (ns, name)) = some j := hj
    rw [answer_of_place rfl, hat] at h
    simp only [reply, patched, hstale] at h
    cases h
    exact .patchPod _ hj rfl
  | getApplication ns name =>
    rw [answer_of_place rfl] at h
    cases h
    rw [reply, Objects.set_at?]
    exact .getApplication ns name
  | createApplication ns application =>
    have hat : o.at? (.record (ns, application.metadata.name.getD "")) = none := hapt
    rw [answer_of_place rfl, hat] at h
    cases h
    exact .createApplication _ _ rfl
  | patchApplication ns name p =>
    obtain ⟨j, hj, hstale⟩ := hapt
    have hat : o.at? (.record (ns, name)) = some j := hj
    rw [answer_of_place rfl, hat] at h
    simp only [reply, patched, hstale] at h
    cases h
    exact .patchApplication _ hj rfl
  | info driver applicationId recorded =>
    rw [answer_of_none rfl] at h
    cases hr : R.info driver applicationId recorded with
    | none =>
      rw [reply, hr] at h
      cases h
    | some r =>
      rw [reply, hr] at h
      cases h
      exact .info _

/-- A registry is a host. -/
def host (R : Registry) : Host Objects where
  toEnvironment := R.environment
  objects := id
  objects_note _ _ := rfl
  serves _ _ _ _ hapt h := .inl (served hapt h)

/-- What a reconcile asks is about its pod and the record of its application. -/
theorem asksOnly_reconcile {o : Objects} (ho : o.Filed) (runningRequeue : Seconds)
    (ns name : String) :
    (reconcile runningRequeue ns name).run.AsksOnly R.environment
      (Question.Within (o.reach ns name)) o :=
  have hsteady : R.host.Steady _ (reconcile runningRequeue ns name) o _ :=
    Host.steady_reconcile ho runningRequeue ns name
  hsteady.about o rfl

end Registry

/-- The places of pods of different applications are different. -/
theorem Objects.reach_apart {o : Objects} {ns₁ name₁ ns₂ name₂ : String}
    (hpods : (ns₁, name₁) ≠ (ns₂, name₂))
    (happlications : ns₁ = ns₂ → ∀ id, o.applicationId? (ns₁, name₁) = some id →
      o.applicationId? (ns₂, name₂) ≠ some id) :
    ∀ place ∈ o.reach ns₁ name₁, place ∉ o.reach ns₂ name₂ := by
  rintro place (rfl | ⟨id, hid, rfl⟩) (h | ⟨id', hid', h⟩)
  · cases h
    exact hpods rfl
  · cases h
  · cases h
  · cases h
    exact happlications rfl id hid hid'

/-- Reconciles of two pods of different applications, or in different namespaces, come to the same
outcomes and leave the same pods and records in either order. Each comes to the outcome that it
would come to alone. -/
theorem reconciles_commute (R : Registry) {o : Objects} (ho : o.Filed) (runningRequeue : Seconds)
    {ns₁ name₁ ns₂ name₂ : String} (hpods : (ns₁, name₁) ≠ (ns₂, name₂))
    (happlications : ns₁ = ns₂ → ∀ id, o.applicationId? (ns₁, name₁) = some id →
      o.applicationId? (ns₂, name₂) ≠ some id) :
    ∃ r₁ r₂ o₁ o₂ o',
      R.run (reconcile runningRequeue ns₁ name₁) o = (r₁, o₁) ∧
      R.run (reconcile runningRequeue ns₂ name₂) o₁ = (r₂, o') ∧
      R.run (reconcile runningRequeue ns₂ name₂) o = (r₂, o₂) ∧
      R.run (reconcile runningRequeue ns₁ name₁) o₂ = (r₁, o') := by
  have h₁ := Registry.asksOnly_reconcile (R := R) ho runningRequeue ns₁ name₁
  have h₂ := Registry.asksOnly_reconcile (R := R) ho runningRequeue ns₂ name₂
  generalize reconcile runningRequeue ns₁ name₁ = x₁ at h₁ ⊢
  generalize reconcile runningRequeue ns₂ name₂ = x₂ at h₂ ⊢
  have hcomm : (R.run x₂ (R.run x₁ o).2).1 = (R.run x₂ o).1 ∧
      (R.run x₁ (R.run x₂ o).2).1 = (R.run x₁ o).1 ∧
      (R.run x₂ (R.run x₁ o).2).2.at? = (R.run x₁ (R.run x₂ o).2).2.at? :=
    h₁.hold_comm R.local_environment h₂ (Objects.reach_apart hpods happlications)
  obtain ⟨hsecond, hfirst, hlook⟩ := hcomm
  refine ⟨(R.run x₁ o).1, (R.run x₂ o).1, (R.run x₁ o).2, (R.run x₂ o).2,
    (R.run x₂ (R.run x₁ o).2).2, rfl, Prod.ext hsecond rfl, rfl, Prod.ext hfirst ?_⟩
  exact (Objects.ext_at? hlook).symm

/-! ## A driver that leaves, and its neighbour -/

/-- An executor of another application than `leavingDriver`. -/
def neighbour : Pod :=
  { Setup.pairPod "executor" with
    metadata.labels :=
      some (.ofList [(Pod.applicationLabel, "other"), (Pod.roleLabel, "executor")]) }

/-- A driver that leaves and has no record, and an executor whose record is there. -/
def Objects.neighbours : Objects where
  pods place :=
    if place = ("spark", "driver") then some leavingDriver.toJson
    else if place = ("spark", "executor") then some neighbour.toJson
    else none
  records place :=
    if place = ("spark", "other") then some (Application.template "spark" "other").toJson else none

theorem Objects.filed_neighbours : neighbours.Filed where
  pods place j h := by
    have hpod (pod : Pod) (hplace : pod.metadata.identity? = some place)
        (hj : some pod.toJson = some j) : j.IsValue ∧
          ∀ pod, Pod.ofJson? j = some pod → pod.metadata.identity? = some place := by
      cases hj
      refine ⟨(Pod.faithful.plain pod).isValue, fun pod' hread => ?_⟩
      cases (Pod.faithful.read_write pod).symm.trans hread
      exact hplace
    simp only [neighbours] at h
    split at h
    · rename_i hplace
      exact hpod leavingDriver (hplace ▸ rfl) h
    split at h
    · rename_i hplace
      exact hpod neighbour (hplace ▸ rfl) h
    · cases h
  records place j h := by
    obtain ⟨rfl, h⟩ := Option.ite_none_right_eq_some.1 h
    cases h
    refine ⟨(Application.faithful.plain _).isValue, nofun, fun a hread => ?_⟩
    cases (Application.faithful.read_write (.template "spark" "other")).symm.trans hread
    rfl

/-- A registry that makes the versions of an object ever longer. -/
def Registry.lengthening
    (info : Pod → String → Option Ledger → Option (Except Info.Error Info)) : Registry where
  version _ stored := (stored.bind (metadataText? · "resourceVersion")).elim "1" (· ++ "1")
  uid
    | .pod (ns, name) => "pod-" ++ ns ++ "-" ++ name
    | .record (ns, name) => "record-" ++ ns ++ "-" ++ name
  info := info

theorem reconciles_commute_neighbours :
    let R := Registry.lengthening Sources.historical.info?
    Objects.neighbours.applicationId? ("spark", "driver") = some "app" ∧
      Objects.neighbours.applicationId? ("spark", "executor") = some "other" ∧
      ∃ r₁ r₂ o₁ o₂ o',
        outcome? r₁ = some .noRequeue ∧ outcome? r₂ = some .noRequeue ∧
        R.run (reconcile .ten "spark" "driver") .neighbours = (r₁, o₁) ∧
        R.run (reconcile .ten "spark" "executor") o₁ = (r₂, o') ∧
        R.run (reconcile .ten "spark" "executor") .neighbours = (r₂, o₂) ∧
        R.run (reconcile .ten "spark" "driver") o₂ = (r₁, o') := by
  intro R
  have hdriver : Objects.neighbours.applicationId? ("spark", "driver") = some "app" := by
    decide +kernel
  have hexecutor : Objects.neighbours.applicationId? ("spark", "executor") = some "other" := by
    decide +kernel
  have happlications (id : String)
      (hid : Objects.neighbours.applicationId? ("spark", "driver") = some id) :
      Objects.neighbours.applicationId? ("spark", "executor") ≠ some id := by
    rw [hdriver] at hid
    rw [hexecutor, ← hid]
    decide
  obtain ⟨r₁, r₂, o₁, o₂, o', hfirst, hsecond, hfirst', hsecond'⟩ :=
    reconciles_commute R Objects.filed_neighbours .ten (by decide) fun _ => happlications
  refine ⟨hdriver, hexecutor, r₁, r₂, o₁, o₂, o', ?_, ?_, hfirst, hsecond, hfirst', hsecond'⟩
  · rw [show r₁ = _ from (congrArg Prod.fst hfirst).symm]
    decide +kernel
  · rw [show r₂ = _ from (congrArg Prod.fst hfirst').symm]
    decide +kernel

end SparkLedger.Tracker
