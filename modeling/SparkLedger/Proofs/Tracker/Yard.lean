import SparkLedger.Proofs.Tracker.Edits
import SparkLedger.Proofs.Tracker.Revision

/-!
# Reconciles beside other writers

The pods of the reconciles over one record, which others write as well. The server gives a pod a new
version with each change, and applies a patch only if it names the version that is stored. Between
any two exchanges somebody else may put any document in the place of a pod, or remove it. A request
may fail, before or after it takes effect.

* `Slot.Handles`: what becomes of a question about a pod. `Slot.Changes`: what others do to a pod.
* `Yard`: a world and the pods. `Setup.YardStep`: one exchange, or one change by others.
* `Slot.Knows`: the document that was seen of a pod is the one that is stored, if that has the same
  version. `Knows.handles_cases`: what becomes of a patch that was made from it.
* `Yard.Sound`: what is stored and what was seen fit together. `sound_run`: they always do.
* `Sound.pods_step`: a step of a reconcile leaves the pods as they are, or applies one change to the
  document that the reconcile has seen last.
-/

namespace SparkLedger.Tracker

open Dialogue (Transcript Exchange)
open Cluster (metadataText? withMetadata)
open Object (HasMetadata conditionalPatch?)

/-! ## Pods in the server -/

/-- The pod that a question is about. -/
def Question.pod? : Question → Option (String × String)
  | .getPod ns name => some (ns, name)
  | .patchPod ns name _ => some (ns, name)
  | _ => none

namespace Slot

/-- What the server makes of a question about the pod: the answer, and the pod after it. -/
inductive Serves (s : Slot) : (q : Question) → q.Answer → Slot → Prop where
  | read (ns name : String) :
      Serves s (.getPod ns name) (sought Pod.ofJson? s.stored : Except Kube.Error (Option Pod)) s
  | patched {ns name version : String} {p j : Json} (hstored : s.stored = some j)
      (hversion : metadataText? p "resourceVersion" = metadataText? j "resourceVersion")
      (hfresh : version ∉ s.given) :
      Serves s (.patchPod ns name p)
        (shown Pod.ofJson? (withMetadata "resourceVersion" version (p.merge j)) :
          Except Kube.Error Pod)
        (s.put version (p.merge j))
  /-- The pod has another version than the patch names. -/
  | outdated {ns name message : String} {p j : Json} (hstored : s.stored = some j)
      (hversion : metadataText? p "resourceVersion" ≠ metadataText? j "resourceVersion") :
      Serves s (.patchPod ns name p)
        (.error (.api 409 "Conflict" message) : Except Kube.Error Pod) s
  | absent {ns name message : String} {p : Json} (hstored : s.stored = none) :
      Serves s (.patchPod ns name p)
        (.error (.api 404 "NotFound" message) : Except Kube.Error Pod) s

/-- What becomes of a question about the pod: it is served, or it fails before or after that. -/
def Handles (s : Slot) (q : Question) (a : q.Answer) (s' : Slot) : Prop :=
  s.Serves q a s' ∨ ∃ error, a = q.failed error ∧ (s' = s ∨ ∃ a', s.Serves q a' s')

/-- What others do to the pod: they put any document of that name there, under a new version, or
they remove it. -/
inductive Changes (place : String × String) (s : Slot) : Slot → Prop where
  | put {j : Json} {version : String} (hvalue : j.IsValue)
      (hnamed : ∀ pod, Pod.ofJson? j = some pod → pod.metadata.identity? = some place)
      (hversion : metadataText? j "resourceVersion" = some version) (hfresh : version ∉ s.given) :
      Changes place s ⟨some j, version :: s.given⟩
  | remove : Changes place s ⟨none, s.given⟩

end Slot

/-! ## Reconciles and others -/

/-- The world of the reconciles and their pods. -/
structure Yard where
  world : World
  /-- The pods by namespace and name. -/
  pods : String × String → Slot
  /-- The document of its pod that each reconcile has seen last. -/
  seen : Nat → Option Json

/-- The yard after one more exchange about a pod. -/
def Yard.tell (y : Yard) (i : Nat) (e : Exchange Tracking) (place : String × String)
    (slot : Slot) : Yard where
  world := y.world.tell i e
  pods := Function.update y.pods place slot
  seen := if (podOf? e).isSome then Function.update y.seen i slot.stored else y.seen

namespace Yard

variable {y : Yard} {i : Nat} {e : Exchange Tracking} {place : String × String} {slot : Slot}

theorem seen_tell_of_none (h : podOf? e = none) : (y.tell i e place slot).seen = y.seen := by
  rw [tell, h]
  rfl

theorem seen_tell_of_some {pod : Pod} (h : podOf? e = some pod) :
    (y.tell i e place slot).seen = Function.update y.seen i slot.stored := by
  rw [tell, h]
  rfl

end Yard

namespace Setup

/-- One exchange of one reconcile, or one change by others. -/
inductive YardStep (S : Setup) (y : Yard) : Option Nat → Yard → Prop where
  /-- The exchange is not about a pod. -/
  | aside {i : Nat} {e : Exchange Tracking} {w : World} (hstep : S.Step y.world w)
      (hsaid : w.said = (y.world.tell i e).said) (hpod : e.question.pod? = none) :
      YardStep S y (some i) { y with world := w }
  | asked {i : Nat} {q : Question} {a : q.Answer} {place : String × String} {slot : Slot}
      (hasks : (S.work i).Asks (y.world.said i) q) (hplace : q.pod? = some place)
      (hhandles : (y.pods place).Handles q a slot) :
      YardStep S y (some i) (y.tell i ⟨q, a⟩ place slot)
  | changed {place : String × String} {slot : Slot}
      (hchanges : (y.pods place).Changes place slot) :
      YardStep S y none { y with pods := Function.update y.pods place slot }

/-- Any number of exchanges and of changes by others. -/
def YardRun (S : Setup) : Yard → Yard → Prop :=
  Relation.ReflTransGen fun y y' => ∃ writer, S.YardStep y writer y'

/-- The yard before any exchange, with these pods. -/
def yard (application : Option Application) (pods : String × String → Option Json) : Yard where
  world := start application
  pods place := {
    stored := pods place
    given := ((pods place).bind (metadataText? · "resourceVersion")).toList }
  seen _ := none

/-- Pods are stored under their names. -/
def Stocked (pods : String × String → Option Json) : Prop :=
  ∀ place j, pods place = some j →
    j.IsValue ∧ ∀ pod, Pod.ofJson? j = some pod → pod.metadata.identity? = some place

variable {S : Setup} {y y' : Yard}

/-- In the world of the reconciles, any answer may be given about a pod. -/
theorem answers_of_pod? {s : Slot} {record place : String × String} {q : Question} {a : q.Answer}
    (h : q.pod? = some place) : s.Answers record q a := by
  cases q with
  | getPod => exact .elsewhere nofun trivial
  | patchPod => exact .elsewhere nofun trivial
  | _ => cases h

/-- What a reconcile exchanges is a step in its world. Others do nothing there. -/
theorem YardStep.world {writer : Option Nat} (h : S.YardStep y writer y') :
    S.Run y.world y'.world := by
  cases h with
  | aside hstep => exact .single hstep
  | asked hasks hplace => exact .single (.heard hasks (answers_of_pod? hplace))
  | changed => exact .refl

theorem YardRun.world (h : S.YardRun y y') : S.Run y.world y'.world := by
  induction h with
  | refl => exact .refl
  | tail _ hstep ih =>
    obtain ⟨_, hstep⟩ := hstep
    exact ih.trans hstep.world

end Setup

/-! ## What was seen of a pod -/

namespace Slot

/-- The document was seen of the pod. It is the stored one if that has the same version. -/
structure Knows (s : Slot) (place : String × String) (j : Json) (pod : Pod) : Prop where
  metadata : ∃ ms metadata, HasMetadata j ms metadata
  read : Pod.ofJson? j = some pod
  named : pod.metadata.identity? = some place
  given : ∀ version, pod.metadata.resourceVersion = some version → version ∈ s.given
  current : ∀ j', s.stored = some j' →
    metadataText? j' "resourceVersion" = pod.metadata.resourceVersion → j' = j

/-- Whatever is stored as a pod may be seen. -/
def Kept (s : Slot) (place : String × String) : Prop :=
  ∀ j pod, s.stored = some j → Pod.ofJson? j = some pod → s.Knows place j pod

/-- The pod was written or removed: what is stored now has a new version. -/
structure Renews (s s' : Slot) : Prop where
  given : s.given ⊆ s'.given
  stored : ∀ j, s'.stored = some j →
    ∃ version ∉ s.given, metadataText? j "resourceVersion" = some version

/-- A change from one pod to another was applied to this document. -/
def Applied (s : Slot) (j : Json) (old new : Pod) (version : String) (s' : Slot) : Prop :=
  ∃ p, conditionalPatch? old new = some p ∧ s.stored = some j ∧ version ∉ s.given ∧
    s' = s.put version (p.merge j)

variable {s s' : Slot} {place : String × String} {j : Json} {pod old new : Pod}

theorem Changes.renews (h : s.Changes place s') : s.Renews s' := by
  cases h with
  | put hvalue hnamed hversion hfresh =>
    refine ⟨List.subset_cons_self .., fun j hj => ?_⟩
    cases hj
    exact ⟨_, hfresh, hversion⟩
  | remove => exact ⟨List.Subset.refl _, nofun⟩

theorem Changes.kept (h : s.Changes place s') : s'.Kept place := by
  intro j pod hj hpod
  cases h with
  | put hvalue hnamed hversion =>
    cases hj
    have hplace := hnamed pod hpod
    obtain ⟨ms, metadata, hmeta⟩ := Pod.exists_hasMetadata hvalue hpod hplace
    refine ⟨⟨ms, metadata, hmeta⟩, hpod, hplace, fun version h => ?_, fun j' hj' _ => ?_⟩
    · rw [← Pod.version_of_ofJson? hmeta hpod, hversion] at h
      cases h
      exact List.mem_cons_self
    · exact (Option.some.inj hj').symm
  | remove => cases hj

namespace Knows

/-- What is stored under a new version was not seen before. -/
theorem renewed_ne (h : s.Knows place j pod) (hs : s.Renews s') : s'.stored ≠ some j := by
  intro hstored
  obtain ⟨ms, metadata, hmeta⟩ := h.metadata
  obtain ⟨version, hfresh, hversion⟩ := hs.stored j hstored
  exact hfresh (h.given version ((Pod.version_of_ofJson? hmeta h.read).symm.trans hversion))

theorem renew (h : s.Knows place j pod) (hs : s.Renews s') : s'.Knows place j pod where
  metadata := h.metadata
  read := h.read
  named := h.named
  given version hversion := hs.given (h.given version hversion)
  current j' hj' hversion := by
    obtain ⟨version, hfresh, hnew⟩ := hs.stored j' hj'
    exact absurd (h.given version (hversion.symm.trans hnew)) hfresh

theorem advance (h : s.Knows place j pod) (hs : s' = s ∨ s.Renews s') : s'.Knows place j pod := by
  rcases hs with rfl | hs
  · exact h
  · exact h.renew hs

/-- A changed document was seen as well. -/
theorem applied (h : s.Knows place j old) (hchange : Pod.Change old new) {version : String}
    (happlied : s.Applied j old new version s') :
    s.Renews s' ∧ ∃ j', s'.stored = some j' ∧
      s'.Knows place j' (new.under (some version)) := by
  obtain ⟨p, hp, -, hfresh, rfl⟩ := happlied
  obtain ⟨ms, metadata, hmeta⟩ := h.metadata
  obtain ⟨hturned, hread⟩ := Pod.turned_merge hmeta h.read hchange hp version
  obtain ⟨-, -, ms', metadata', -, hmeta', -⟩ := hturned
  have hversion := Pod.version_of_ofJson? hmeta' hread
  refine ⟨⟨List.subset_cons_self .., fun j' hj' => ?_⟩, _, rfl, ⟨ms', metadata', hmeta'⟩, hread,
    hchange.identity_eq.trans h.named, fun v hv => ?_, fun j' hj' _ => ?_⟩
  · cases hj'
    exact ⟨version, hfresh, hversion⟩
  · cases hv
    exact List.mem_cons_self
  · exact (Option.some.inj hj').symm

variable {q : Question} {a : q.Answer}

/-- A patch that was made from the document is applied to it, or it fails. -/
theorem serves_cases (h : s.Knows place j old) (hchange : Pod.Change old new)
    (hpatch : IsPatchOf old new q) (hserves : s.Serves q a s') :
    (s' = s ∧ ∃ error, a = q.failed error) ∨
      ∃ version, s.Applied j old new version s' ∧
        podOf? ⟨q, a⟩ = some (new.under (some version)) := by
  obtain ⟨ms, metadata, hmeta⟩ := h.metadata
  cases hserves with
  | read => exact hpatch.elim
  | @patched ns name version p j' hstored hversion hfresh =>
    -- The patch names the version of the document it was made from, so that is what is stored.
    have hsame : j' = j := by
      refine h.current j' hstored (hversion.symm.trans ?_)
      exact Object.metadataText?_conditionalPatch? hpatch.2 hchange.version_eq
    subst hsame
    refine .inr ⟨version, ⟨p, hpatch.2, hstored, hfresh, rfl⟩, ?_⟩
    rw [shown, (Pod.turned_merge hmeta h.read hchange hpatch.2 version).2]
    rfl
  | outdated => exact .inl ⟨rfl, _, rfl⟩
  | absent => exact .inl ⟨rfl, _, rfl⟩

theorem handles_cases (h : s.Knows place j old) (hchange : Pod.Change old new)
    (hpatch : IsPatchOf old new q) (hhandles : s.Handles q a s') :
    ((∃ error, a = q.failed error) ∧ (s' = s ∨ ∃ version, s.Applied j old new version s')) ∨
      ∃ version, s.Applied j old new version s' ∧
        podOf? ⟨q, a⟩ = some (new.under (some version)) := by
  rcases hhandles with hserves | ⟨error, rfl, rfl | ⟨a', hserves⟩⟩
  · rcases h.serves_cases hchange hpatch hserves with ⟨rfl, herror⟩ | happlied
    · exact .inl ⟨herror, .inl rfl⟩
    · exact .inr happlied
  · exact .inl ⟨⟨error, rfl⟩, .inl rfl⟩
  · refine .inl ⟨⟨error, rfl⟩, ?_⟩
    rcases h.serves_cases hchange hpatch hserves with ⟨rfl, -⟩ | ⟨version, happlied, -⟩
    · exact .inl rfl
    · exact .inr ⟨version, happlied⟩

/-- What is stored after a pod was seen is what was seen. -/
theorem kept (h : s.Knows place j pod) (hstored : s.stored = some j) : s.Kept place := by
  intro j' pod' hstored' hread
  cases hstored.symm.trans hstored'
  cases h.read.symm.trans hread
  exact h

end Knows

theorem Handles.read_cases {ns name : String} {a : Except Kube.Error (Option Pod)}
    (h : s.Handles (.getPod ns name) a s') :
    s' = s ∧ (a = sought Pod.ofJson? s.stored ∨ ∃ error, a = .error error) := by
  rcases h with hserves | ⟨error, rfl, rfl | ⟨a', hserves⟩⟩
  · cases hserves
    exact ⟨rfl, .inl rfl⟩
  · exact ⟨rfl, .inr ⟨error, rfl⟩⟩
  · cases hserves
    exact ⟨rfl, .inr ⟨error, rfl⟩⟩

end Slot

theorem eq_ok_of_podOf?_getPod {ns name : String} {a : Except Kube.Error (Option Pod)} {pod : Pod}
    (h : podOf? ⟨.getPod ns name, a⟩ = some pod) : a = .ok (some pod) := by
  cases a with
  | ok pod? => exact congrArg Except.ok h
  | error => cases h

theorem podOf?_failed (q : Question) (error : Kube.Error) : podOf? ⟨q, q.failed error⟩ = none := by
  cases q <;> rfl

theorem podOf?_of_pod?_eq_none {e : Exchange Tracking} (h : e.question.pod? = none) :
    podOf? e = none := by
  obtain ⟨q, a⟩ := e
  cases q <;> first | rfl | cases h

namespace Yard

variable {S : Setup} {y y' : Yard} {i : Nat}

/-- What is stored and what was seen of the pods fit together. -/
structure Sound (S : Setup) (y : Yard) : Prop where
  kept : ∀ place, (y.pods place).Kept place
  seen : ∀ i, Option.Rel ((y.pods (S.pods i)).Knows (S.pods i)) (y.seen i)
    (lastPod? (y.world.said i))

namespace Sound

/-- The pod that a reconcile has seen last is that of the document. -/
theorem exists_knows (h : y.Sound S) {pod : Pod} (hlast : lastPod? (y.world.said i) = some pod) :
    ∃ j, y.seen i = some j ∧ (y.pods (S.pods i)).Knows (S.pods i) j pod := by
  have hrel := h.seen i
  rw [hlast] at hrel
  exact match y.seen i, hrel with
    | _, .some hknows => ⟨_, rfl, hknows⟩

theorem knows (h : y.Sound S) {j : Json} (hseen : y.seen i = some j) :
    ∃ pod, lastPod? (y.world.said i) = some pod ∧ (y.pods (S.pods i)).Knows (S.pods i) j pod := by
  have hrel := h.seen i
  rw [hseen] at hrel
  exact match lastPod? (y.world.said i), hrel with
    | _, .some hknows => ⟨_, rfl, hknows⟩

/-- What a reconcile asks about pods: it reads its own, or patches it. -/
theorem asks_cases {q : Question} {place : String × String} (h : y.Sound S)
    (hasks : (S.work i).Asks (y.world.said i) q) (hplace : q.pod? = some place) :
    place = S.pods i ∧
      ((y.world.said i = [] ∧ q = .getPod (S.pods i).1 (S.pods i).2) ∨
        ∃ j old new, PodEdit S.runningRequeue (S.pods i).1 (S.pods i).2 (y.world.said i) old new ∧
          IsPatchOf old new q ∧ y.seen i = some j ∧
          (y.pods (S.pods i)).Knows (S.pods i) j old) := by
  rcases asks_reconcile hasks with ⟨hsaid, rfl⟩ | ⟨old, new, hedit, hpatch⟩ | ⟨_, _, _, -, hrest⟩
  · exact ⟨(Option.some.inj hplace).symm, .inl ⟨hsaid, rfl⟩⟩
  · obtain ⟨j, hseen, hknows⟩ := h.exists_knows hedit.lastPod?_eq
    refine ⟨?_, .inr ⟨j, old, new, hedit, hpatch, hseen, hknows⟩⟩
    cases q with
    | patchPod ns name p =>
      exact (Option.some.inj hplace).symm.trans
        (Option.some.inj (hpatch.1.symm.trans hknows.named))
    | _ => exact hpatch.elim
  · rcases hrest with ⟨-, rfl⟩ | ⟨existing, t', -, ⟨-, htrack⟩ | ⟨-, htrack⟩⟩
    · cases hplace
    · obtain ⟨_, _, _, _, _, _, _, _, _, _, rfl⟩ := asks_trackExecutor htrack
      cases hplace
    · rcases htrack with ⟨_, _, -, -, rfl⟩ | ⟨_, _, _, _, -, -, hwrite⟩
      · cases hplace
      · cases q with
        | createApplication => cases hplace
        | patchApplication => cases hplace
        | _ => exact hwrite.elim

section

variable {place : String × String} {slot : Slot}

private theorem kept_update (h : y.Sound S) (hkept : slot.Kept place) (place' : String × String) :
    (Function.update y.pods place slot place').Kept place' := by
  by_cases hplace : place' = place
  · subst hplace
    rwa [Function.update_self]
  · rw [Function.update_of_ne hplace]
    exact h.kept place'

private theorem seen_update (h : y.Sound S)
    (hslot : slot = y.pods place ∨ (y.pods place).Renews slot) (k : Nat) :
    Option.Rel ((Function.update y.pods place slot (S.pods k)).Knows (S.pods k)) (y.seen k)
      (lastPod? (y.world.said k)) := by
  have hk := h.seen k
  by_cases hplace : S.pods k = place
  · subst hplace
    rw [Function.update_self]
    exact match y.seen k, lastPod? (y.world.said k), hk with
      | _, _, .none => .none
      | _, _, .some hknows => .some (hknows.advance hslot)
  · rwa [Function.update_of_ne hplace]

end

theorem lastPod?_said_tell {w : World} {k : Nat} {e : Exchange Tracking} (h : podOf? e = none) :
    lastPod? ((w.tell i e).said k) = lastPod? (w.said k) := by
  by_cases hk : k = i
  · subst hk
    rw [World.said_tell_self, lastPod?_concat, h]
    rfl
  · rw [World.said_tell_of_ne hk]

/-- An exchange about a pod keeps the yard in order if the slot is so after it. -/
private theorem tell (h : y.Sound S) {e : Exchange Tracking} {slot : Slot}
    (hslot : slot = y.pods (S.pods i) ∨ (y.pods (S.pods i)).Renews slot)
    (hkept : slot.Kept (S.pods i))
    (hanswer : ∀ pod, podOf? e = some pod → ∃ j, slot.stored = some j ∧ Pod.ofJson? j = some pod) :
    (y.tell i e (S.pods i) slot).Sound S where
  kept := h.kept_update hkept
  seen k := by
    have hold := h.seen_update hslot k
    change Option.Rel ((Function.update y.pods _ slot _).Knows _) _
      (lastPod? ((y.world.tell i e).said k))
    cases hpod : podOf? e with
    | none => rwa [seen_tell_of_none hpod, lastPod?_said_tell hpod]
    | some pod =>
      rw [seen_tell_of_some hpod]
      by_cases hk : k = i
      · subst hk
        obtain ⟨j, hstored, hread⟩ := hanswer pod hpod
        rw [World.said_tell_self, lastPod?_concat, hpod, Function.update_self, Function.update_self,
          hstored]
        exact .some (hkept j pod hstored hread)
      · rwa [World.said_tell_of_ne hk, Function.update_of_ne hk]

theorem step {writer : Option Nat} (h : y.Sound S) (hstep : S.YardStep y writer y') :
    y'.Sound S := by
  cases hstep with
  | @aside i e w hstep hsaid hpod =>
    refine ⟨h.kept, fun k => ?_⟩
    change Option.Rel _ _ (lastPod? (w.said k))
    rw [hsaid, lastPod?_said_tell (podOf?_of_pod?_eq_none hpod)]
    exact h.seen k
  | @asked i q a place slot hasks hplace hhandles =>
    obtain ⟨rfl, ⟨-, rfl⟩ | ⟨j, old, new, hedit, hpatch, -, hknows⟩⟩ := h.asks_cases hasks hplace
    · obtain ⟨rfl, ha⟩ := hhandles.read_cases
      refine h.tell (.inl rfl) (h.kept _) fun pod hpod => ?_
      rcases ha with rfl | ⟨error, rfl⟩
      · exact Server.sought_eq_ok_some_iff.1 (eq_ok_of_podOf?_getPod hpod)
      · cases hpod
    · have hkept : (y.pods (S.pods i)).Kept (S.pods i) := h.kept _
      rcases hknows.handles_cases hedit.change hpatch hhandles with
        ⟨⟨error, rfl⟩, rfl | ⟨version, happlied⟩⟩ | ⟨version, happlied, hpod⟩
      · refine h.tell (.inl rfl) hkept fun pod hpod => ?_
        cases (podOf?_failed q error).symm.trans hpod
      · obtain ⟨hrenews, j', hstored, hknows'⟩ := hknows.applied hedit.change happlied
        refine h.tell (.inr hrenews) (hknows'.kept hstored) fun pod hpod => ?_
        cases (podOf?_failed q error).symm.trans hpod
      · obtain ⟨hrenews, j', hstored, hknows'⟩ := hknows.applied hedit.change happlied
        refine h.tell (.inr hrenews) (hknows'.kept hstored) fun pod hpod' => ?_
        cases hpod.symm.trans hpod'
        exact ⟨j', hstored, hknows'.read⟩
  | changed hchanges =>
    exact ⟨h.kept_update hchanges.kept, h.seen_update (.inr hchanges.renews)⟩

/-- A step of a reconcile leaves the pods as they are, or applies one change to the document of its
pod that it has seen last. -/
theorem pods_step (h : y.Sound S) (hstep : S.YardStep y (some i) y') :
    y'.pods = y.pods ∨ ∃ j old new version slot,
      PodEdit S.runningRequeue (S.pods i).1 (S.pods i).2 (y.world.said i) old new ∧
      y.seen i = some j ∧ (y.pods (S.pods i)).Knows (S.pods i) j old ∧
      (y.pods (S.pods i)).Applied j old new version slot ∧
      y'.pods = Function.update y.pods (S.pods i) slot := by
  cases hstep with
  | aside => exact .inl rfl
  | @asked _ q a place slot hasks hplace hhandles =>
    have hsame (hslot : slot = y.pods place) : Function.update y.pods place slot = y.pods := by
      rw [hslot, Function.update_eq_self]
    obtain ⟨rfl, ⟨-, rfl⟩ | ⟨j, old, new, hedit, hpatch, hseen, hknows⟩⟩ :=
      h.asks_cases hasks hplace
    · exact .inl (hsame hhandles.read_cases.1)
    · rcases hknows.handles_cases hedit.change hpatch hhandles with
        ⟨-, hslot | ⟨version, happlied⟩⟩ | ⟨version, happlied, -⟩
      · exact .inl (hsame hslot)
      · exact .inr ⟨j, old, new, version, slot, hedit, hseen, hknows, happlied, rfl⟩
      · exact .inr ⟨j, old, new, version, slot, hedit, hseen, hknows, happlied, rfl⟩

/-- A step leaves a pod as it is, or what is stored then has a new version. -/
theorem renews_step {writer : Option Nat} (h : y.Sound S) (hstep : S.YardStep y writer y')
    (place : String × String) :
    y'.pods place = y.pods place ∨ (y.pods place).Renews (y'.pods place) := by
  have hupdate {place' : String × String} {slot : Slot} (hrenews : (y.pods place').Renews slot) :
      Function.update y.pods place' slot place = y.pods place ∨
        (y.pods place).Renews (Function.update y.pods place' slot place) := by
    by_cases hplace : place = place'
    · subst hplace
      rw [Function.update_self]
      exact .inr hrenews
    · exact .inl (Function.update_of_ne hplace ..)
  cases writer with
  | some i =>
    rcases h.pods_step hstep with
      hsame | ⟨j, old, new, version, slot, hedit, -, hknows, happlied, hpods⟩
    · exact .inl (congrFun hsame place)
    · rw [hpods]
      exact hupdate (hknows.applied hedit.change happlied).1
  | none =>
    cases hstep with
    | changed hchanges => exact hupdate hchanges.renews

end Sound

/-- Only a reconcile itself sees a pod. -/
theorem seen_step {writer : Option Nat} (hstep : S.YardStep y writer y')
    (hwriter : writer ≠ some i) :
    y'.seen i = y.seen i := by
  cases hstep with
  | aside => rfl
  | @asked k q a place slot =>
    have hk : i ≠ k := fun h => hwriter (congrArg some h.symm)
    cases hpod : podOf? ⟨q, a⟩ with
    | none => rw [seen_tell_of_none hpod]
    | some pod => rw [seen_tell_of_some hpod, Function.update_of_ne hk]
  | changed => rfl

/-- Only a reconcile itself exchanges anything. -/
theorem said_step {writer : Option Nat} (hstep : S.YardStep y writer y')
    (hwriter : writer ≠ some i) : y'.world.said i = y.world.said i := by
  cases hstep with
  | @aside k e w hstep hsaid =>
    have hk : i ≠ k := fun h => hwriter (congrArg some h.symm)
    exact (congrFun hsaid i).trans (World.said_tell_of_ne hk)
  | @asked k q a place slot =>
    exact World.said_tell_of_ne fun h => hwriter (congrArg some h.symm)
  | changed => rfl

end Yard

/-! ## Runs -/

variable {S : Setup} {application : Option Application} {pods : String × String → Option Json}
  {y : Yard}

theorem sound_yard (hpods : Setup.Stocked pods) : (Setup.yard application pods).Sound S where
  kept place j pod hj hpod := by
    obtain ⟨hvalue, hnamed⟩ := hpods place j hj
    obtain ⟨ms, metadata, hmeta⟩ := Pod.exists_hasMetadata hvalue hpod (hnamed pod hpod)
    refine ⟨⟨ms, metadata, hmeta⟩, hpod, hnamed pod hpod, fun version h => ?_, fun j' hj' _ => ?_⟩
    · rw [← Pod.version_of_ofJson? hmeta hpod] at h
      change pods place = some j at hj
      simp [Setup.yard, hj, h]
    · exact Option.some.inj (hj'.symm.trans hj)
  seen _ := .none

/-- What is stored and what was seen of the pods fit together at any time. -/
theorem sound_run (hpods : Setup.Stocked pods) (hrun : S.YardRun (Setup.yard application pods) y) :
    y.Sound S := by
  induction hrun with
  | refl => exact sound_yard hpods
  | tail _ hstep ih =>
    obtain ⟨_, hstep⟩ := hstep
    exact ih.step hstep

end SparkLedger.Tracker
