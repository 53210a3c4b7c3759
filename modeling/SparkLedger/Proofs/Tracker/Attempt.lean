import SparkLedger.Proofs.Tracker.Requests
import SparkLedger.Proofs.Tracker.Site

/-!
# The writes of a reconcile

What a server makes of the writes of a reconcile, which are made from what is stored: the patch of
a pod, and the creation or patch of a record. None of them is refused as outdated. Each comes to
what it is for, or to nothing, or it fails before or after that.

* `Objects.HasPod`, `Objects.Holds`: what is stored, as it is read.
* `Objects.Turn`: a pod that was changed. `Server.Changes`: work that changes a pod.
* `Objects.revision`: the document of a record that is written. `Server.run_writeApplication`: how
  it is written.
-/

namespace SparkLedger

namespace Application

/-- A record once it is written: a new one is given a uid. -/
def assigned (a : Application) : Option Application → String → Application
  | none, uid => { a with metadata.uid := some uid }
  | some _, _ => a

/-- A new record can be read. -/
theorem ofJson?_created (a : Application) (uid version : String) :
    ofJson? (Cluster.withMetadata "resourceVersion" version
        (Cluster.withMetadata "uid" uid a.toJson)) =
      some ((a.assigned none uid).under (some version)) := by
  rw [withMetadata_uid, withMetadata_version]
  exact faithful.read_write _

end Application

namespace Tracker

open Dialogue (Exchange)
open Cluster (withMetadata isStale)
open Object (HasMetadata Metadata conditionalPatch? Resource Turned)

namespace Objects

/-- A pod is stored under its name, and is read so. -/
structure HasPod (o : Objects) (place : String × String) (j : Json) (pod : Pod) : Prop where
  stored : o.pods place = some j
  metadata : ∃ ms metadata, HasMetadata j ms metadata
  read : Pod.ofJson? j = some pod
  named : pod.metadata.identity? = some place

theorem HasPod.unique {o : Objects} {place : String × String} {j j' : Json} {pod pod' : Pod}
    (h : o.HasPod place j pod) (h' : o.HasPod place j' pod') : j = j' ∧ pod = pod' := by
  obtain rfl := Option.some.inj (h.stored.symm.trans h'.stored)
  exact ⟨rfl, Option.some.inj (h.read.symm.trans h'.read)⟩

theorem HasPod.putRecord {o : Objects} {place : String × String} {j : Json} {pod : Pod}
    (h : o.HasPod place j pod) (place' : String × String) (j' : Json) :
    (o.putRecord place' j').HasPod place j pod :=
  ⟨h.stored, h.metadata, h.read, h.named⟩

/-- A patch that is made from a pod as it is stored names its version, and stores the pod that it
is for. -/
theorem HasPod.patch {o : Objects} {place : String × String} {j p : Json} {pod pod' : Pod}
    (h : o.HasPod place j pod) (hchange : Pod.Change pod pod')
    (hp : conditionalPatch? pod pod' = some p) (version : String) :
    isStale p j = false ∧
      (o.putPod place (withMetadata "resourceVersion" version (p.merge j))).HasPod place
        (withMetadata "resourceVersion" version (p.merge j)) (pod'.under (some version)) ∧
      Turned pod.metadata (pod'.under (some version)).metadata j
        (withMetadata "resourceVersion" version (p.merge j)) := by
  obtain ⟨ms, metadata, hmeta⟩ := h.metadata
  obtain ⟨hturned, hread⟩ := Pod.turned_merge hmeta h.read hchange hp version
  refine ⟨?_, ⟨Function.update_self .., ?_, hread, hchange.identity_eq.trans h.named⟩, ?_⟩
  · exact Object.isStale_conditionalPatch? hmeta (Pod.ofJson?_metadata hmeta h.read) hp
      hchange.version_eq
  · obtain ⟨-, -, ms', metadata', -, h', -⟩ := hturned
    exact ⟨ms', metadata', h'⟩
  · exact hturned.congr fun k hk => Pod.find?_under pod' _ hk

/-- A pod was changed, and no other. -/
def Turn (place : String × String) (pod pod' : Pod) (o o' : Objects) : Prop :=
  ∃ j j', o.HasPod place j pod ∧ o'.HasPod place j' pod' ∧
    Turned pod.metadata pod'.metadata j j' ∧ ∀ q, q ≠ place → o'.pods q = o.pods q

theorem Turn.refl {o : Objects} {place : String × String} {j : Json} {pod : Pod}
    (h : o.HasPod place j pod) : Turn place pod pod o o := by
  obtain ⟨ms, metadata, hmeta⟩ := h.metadata
  exact ⟨j, j, h, h, .refl hmeta _, fun _ _ => rfl⟩

theorem Turn.trans {o o₁ o₂ : Objects} {place : String × String} {pod pod₁ pod₂ : Pod}
    (h₁ : Turn place pod pod₁ o o₁) (h₂ : Turn place pod₁ pod₂ o₁ o₂)
    (hkept : ∀ k, k ≠ "resourceVersion" →
      Assoc.find? k pod₂.metadata.toJson.members = Assoc.find? k pod.metadata.toJson.members →
        Assoc.find? k pod₁.metadata.toJson.members = Assoc.find? k pod.metadata.toJson.members) :
    Turn place pod pod₂ o o₂ := by
  obtain ⟨j, j₁, hj, hj₁, hturned₁, hothers₁⟩ := h₁
  obtain ⟨j₁', j₂, hj₁', hj₂, hturned₂, hothers₂⟩ := h₂
  obtain ⟨rfl, -⟩ := hj₁.unique hj₁'
  exact ⟨j, j₂, hj, hj₂, hturned₁.trans hturned₂ hkept,
    fun q hq => (hothers₂ q hq).trans (hothers₁ q hq)⟩

/-- A record is stored under its name and is read so, or there is none. -/
def Holds (o : Objects) (place : String × String) : Option Application → Prop
  | none => o.records place = none
  | some a => a.metadata.identity? = some place ∧ ∃ j, o.records place = some j ∧
      (∃ ms metadata, HasMetadata j ms metadata) ∧ Application.ofJson? j = some a

/-- The document of a record that is written, its version aside. -/
def revision (o : Objects) (place : String × String) (existing : Option Application)
    (a : Application) (uid : String) : Json :=
  match existing with
  | none => withMetadata "uid" uid a.toJson
  | some b => ((conditionalPatch? b a).getD (.obj [])).merge ((o.records place).getD .null)

theorem revision_self {o : Objects} {place : String × String} {j : Json}
    {ms metadata : List (String × Json)} (hstored : o.records place = some j)
    (hmeta : HasMetadata j ms metadata) (a : Application) (uid : String) :
    o.revision place (some a) a uid = j := by
  rw [revision, Object.conditionalPatch?_self, hstored, Option.getD_none, Option.getD_some,
    hmeta.eq_obj, Json.merge, Json.mergeMembers]
  rfl

/-- A record can be written in the place of what is there. -/
structure Revisable (o : Objects) (place : String × String) (existing : Option Application)
    (a : Application) : Prop where
  named : a.metadata.identity? = some place
  metadata_eq : ∀ b, existing = some b → a.metadata = b.metadata
  sound : existing ≠ some a → ∀ j, o.records place = some j → j.IsValue ∧ Application.Named j

end Objects

namespace Server

variable {S : Server} {s : Site} {cause : StoreError → Error} {j : Json}

/-- Work that changes a pod by one patch, or by none if nothing changes. -/
def Changes {α : Type} (S : Server) (x : Work α) (result : Pod → α) (s : Site)
    (place : String × String) (pod pod' : Pod) : Prop :=
  (pod' = pod ∧ S.run x s = (.done (.ok (result pod)), s)) ∨
  ∃ cause p o version, conditionalPatch? pod pod' = some p ∧ o.records = s.objects.records ∧
    s.objects.Turn place pod (pod'.under version) o ∧
    S.run x s = S.attempt cause ⟨.patchPod place.1 place.2 p,
      (.ok (pod'.under version) : Except Kube.Error Pod)⟩ o (.ok (result (pod'.under version))) s

theorem changes_patchPod {place : String × String} {pod pod' : Pod}
    (h : s.objects.HasPod place j pod) (hchange : Pod.Change pod pod')
    (cause : StoreError → Error) :
    S.Changes (.store cause (patchPod pod pod')) id s place pod pod' := by
  obtain ⟨ns, name⟩ := place
  cases hp : conditionalPatch? pod pod' with
  | none =>
    have hsame := Object.eq_of_conditionalPatch?_eq_none hp
    exact .inl ⟨hsame.symm, run_patchWith_of_none h.named hp⟩
  | some p =>
    obtain ⟨hstale, hpod, hturned⟩ := h.patch hchange hp (S.version s.said.length)
    have hrun : S.run (.store cause (patchPod pod pod')) s = _ :=
      run_patchPod_of_some h.named hp h.stored hstale
    rw [shown, hpod.read] at hrun
    exact .inr ⟨cause, p, s.objects.putPod (ns, name) _, some (S.version s.said.length), hp, rfl,
      ⟨j, _, h, hpod, hturned, fun q hq => Function.update_of_ne hq ..⟩, hrun⟩

/-- After a change of a pod that ends anyhow, the pod is as it was, or it is changed. -/
theorem Changes.ensures {α : Type} {x : Work α} {result : Pod → α} {place : String × String}
    {pod pod' : Pod} (h : S.Changes x result s place pod pod')
    (hpod : s.objects.HasPod place j pod) :
    S.Ensures x s
      (fun a s' => ∃ version, a = result (pod'.under version) ∧
        s'.objects.records = s.objects.records ∧
        s.objects.Turn place pod (pod'.under version) s'.objects)
      (fun s' => s'.objects = s.objects ∨ ∃ version, s'.objects.records = s.objects.records ∧
        s.objects.Turn place pod (pod'.under version) s'.objects) := by
  rcases h with ⟨rfl, hrun⟩ | ⟨cause, p, o, version, -, hrecords, hturn, hrun⟩
  · exact .of_run hrun ⟨pod'.metadata.resourceVersion, rfl, rfl, .refl hpod⟩ (.inl rfl)
  · refine .of_attempt hrun (fun a ha => ?_) (.inr ⟨version, hrecords, hturn⟩) ?_
    · cases ha
      exact ⟨version, rfl, hrecords, hturn⟩
    · rintro error o' (rfl | rfl)
      · exact .inl rfl
      · exact .inr ⟨version, hrecords, hturn⟩

/-- A pod that is to stay as it is takes no request. -/
theorem Changes.run_of_eq {α : Type} {x : Work α} {result : Pod → α} {place : String × String}
    {pod pod' : Pod} (h : S.Changes x result s place pod pod') (hsame : pod' = pod) :
    S.run x s = (.done (.ok (result pod)), s) := by
  rcases h with ⟨-, hrun⟩ | ⟨cause, p, o, version, hp, -, -, -⟩
  · exact hrun
  · rw [hsame, Object.conditionalPatch?_self] at hp
    cases hp

/-- If no request fails, the pod is changed. -/
theorem Changes.exists_run {α : Type} {x : Work α} {result : Pod → α} {place : String × String}
    {pod pod' : Pod} (h : S.Changes x result s place pod pod') (hS : S.Serves) :
    ∃ a s', S.run x s = (.done (.ok a), s') := by
  rcases h with ⟨-, hrun⟩ | ⟨cause, p, o, version, -, -, -, hrun⟩
  · exact ⟨_, _, hrun⟩
  · exact ⟨_, _, hrun.trans (hS.attempt_eq ..)⟩

variable {place : String × String} {existing : Option Application} {a : Application}

/-- A record is written by one request, or by none if nothing changes. -/
theorem run_writeApplication (hholds : s.objects.Holds place existing)
    (h : s.objects.Revisable place existing a) :
    (existing = some a ∧ S.run (writeApplication existing a) s = (.done (.ok a), s)) ∨
    existing ≠ some a ∧ ∃ e revised, revised =
        withMetadata "resourceVersion" (S.version s.said.length)
        (s.objects.revision place existing a (S.uid s.said.length)) ∧
      e.question.isChange = true ∧
      (∀ b, Application.ofJson? revised = some b → Exchange.Writes place b e ∧
        b = (a.assigned existing (S.uid s.said.length)).under (some (S.version s.said.length))) ∧
      (∃ ms metadata,
        HasMetadata (s.objects.revision place existing a (S.uid s.said.length)) ms metadata) ∧
      S.run (writeApplication existing a) s =
        S.attempt .store e (s.objects.putRecord place revised)
          (((shown Application.ofJson? revised).mapError .ofKube).mapError .store) s := by
  obtain ⟨ns, name⟩ := place
  cases existing with
  | none =>
    have hmeta := (Application.hasMetadata_toJson a).amend
      [("uid", some (.str (S.uid s.said.length)))]
    rw [← Object.withMetadata_eq_amend] at hmeta
    refine .inr ⟨nofun, _, _, rfl, rfl, fun c hc => ?_, ⟨_, _, hmeta⟩,
      run_createApplication h.named hholds⟩
    have hread := a.ofJson?_created (S.uid s.said.length) (S.version s.said.length)
    obtain rfl := Option.some.inj (hread.symm.trans hc)
    refine ⟨?_, rfl⟩
    rw [shown, hread]
    exact .create a
  | some b =>
    obtain ⟨hnamed, j, hstored, ⟨ms, metadata, hmeta⟩, hread⟩ := hholds
    cases hp : conditionalPatch? b a with
    | none =>
      have hsame := Object.eq_of_conditionalPatch?_eq_none hp
      subst hsame
      exact .inl ⟨rfl, run_patchWith_of_none hnamed hp⟩
    | some p =>
      have hne : some b ≠ some a := by
        intro heq
        cases heq
        rw [Object.conditionalPatch?_self] at hp
        cases hp
      have hmetadata := h.metadata_eq b rfl
      obtain ⟨hvalue, hstructs⟩ := h.sound hne j hstored
      have hversion :
          (Resource.metadata a).resourceVersion = (Resource.metadata b).resourceVersion :=
        congrArg Metadata.resourceVersion hmetadata
      have hrevision :
          s.objects.revision (ns, name) (some b) a (S.uid s.said.length) = p.merge j := by
        rw [Objects.revision, hp, hstored]
        rfl
      -- The patch names the version that was read, and nobody wrote since.
      have hstale : isStale p j = false :=
        Object.isStale_conditionalPatch? hmeta (Application.ofJson?_metadata hmeta hread) hp
          hversion
      rw [hrevision]
      refine .inr ⟨hne, _, _, rfl, rfl, fun c hc => ?_,
        Object.exists_hasMetadata_merge hmeta hp hversion,
        run_patchApplication_of_some hnamed hp hstored hstale⟩
      refine ⟨?_, Application.eq_of_ofJson?_merge hvalue hstructs hread hmetadata hp hc⟩
      rw [shown, hc]
      exact .patch p

end Server

end Tracker

end SparkLedger
