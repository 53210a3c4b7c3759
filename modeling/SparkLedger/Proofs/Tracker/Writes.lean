import SparkLedger.Proofs.Object.Conditional
import SparkLedger.Proofs.Tracker.Site
import SparkLedger.Proofs.Tracker.Work

/-!
# Writes of objects

A write turns the object that was read into the one that is wanted. It asks nothing if the two are
written alike. Otherwise it asks one question, a patch that names the version that was read, and
fails without effect where the server checks versions and has stored another one by then. What is
said of the patch holds of any two documents, of which pods and records are written as some.

* `Conditional`: what is said of a write.
* `conditional_patchWith`: what of it does not depend on the kind of the object.
* `Server.run_patchPod_of_stale`, `Server.run_patchApplication_of_stale`: writes that are refused.
* `writes_are_conditional`: the patches between documents, and the writes of pods and of records.
-/

namespace SparkLedger.Tracker

open Cluster (isStale metadataText?)
open Object (Resource LawfulResource NamesVersion IsDocument ConditionalOn conditionalPatch?
  conditionalOn_toJson patchBetween?)

/-! ## Writes that are refused -/

namespace Server

variable {S : Server} {s : Site} {cause : StoreError → Error} {ns name : String} {p j : Json}

/-- A request that is answered by a failure fails, whatever becomes of it, and has no effect. -/
theorem exists_attempt_error {α : Type} (q : Question) {a : q.Answer} {r : Except Error α}
    {error : Kube.Error} (ha : a = q.failed error) (hr : r = .error (cause (.ofKube error))) :
    ∃ error', S.attempt cause ⟨q, a⟩ s.objects r s =
        (.done (.error (cause (.ofKube error'))), s.tell ⟨q, q.failed error'⟩ s.objects) ∧
      (S.fate s.said.length = .served → error' = error) := by
  subst ha hr
  unfold attempt
  cases S.fate s.said.length with
  | served => exact ⟨error, rfl, fun _ => rfl⟩
  | refused error' => exact ⟨error', rfl, nofun⟩
  | lost error' => exact ⟨error', rfl, nofun⟩

theorem patched_of_stale (hchecks : S.conditional = true) (hstale : isStale p j = true)
    (version : String) : S.patched version p (some j) = .error outdated := by
  rw [patched, hchecks, hstale]
  rfl

theorem run_patchPod_of_stale {old new : Pod} (hplace : old.metadata.identity? = some (ns, name))
    (hp : conditionalPatch? old new = some p) (hj : s.objects.pods (ns, name) = some j)
    (hchecks : S.conditional = true) (hstale : isStale p j = true) :
    S.run (.store cause (patchPod old new)) s =
      S.attempt cause ⟨.patchPod ns name p, (.error outdated : Except Kube.Error Pod)⟩ s.objects
        (.error (cause (.ofKube outdated))) s :=
  run_patchPod_of_answer hplace hp
    (by simp only [answer, hj, patched_of_stale hchecks hstale])

theorem run_patchApplication_of_stale {old new : Application}
    (hplace : old.metadata.identity? = some (ns, name)) (hp : conditionalPatch? old new = some p)
    (hj : s.objects.records (ns, name) = some j) (hchecks : S.conditional = true)
    (hstale : isStale p j = true) :
    S.run (.store cause (patchApplication old new)) s =
      S.attempt cause
        ⟨.patchApplication ns name p, (.error outdated : Except Kube.Error Application)⟩ s.objects
        (.error (cause (.ofKube outdated))) s :=
  run_patchApplication_of_answer hplace hp
    (by simp only [answer, hj, patched_of_stale hchecks hstale])

end Server

/-! ## What is said of a write -/

section

variable {α : Type} [Resource α]

/-- What is said of every write of one kind of object, given the question that asks for a patch and
where such objects are stored. -/
structure Conditional (request : String → String → Json → Question)
    (stored : Objects → String × String → Option Json)
    (write : α → α → Dialogue Tracking (Except StoreError α)) (old new : α) : Prop where
  /-- There is no patch exactly between objects that are written alike. -/
  patch_eq_none_iff : conditionalPatch? old new = none ↔ Resource.toJson old = Resource.toJson new
  /-- The patch from an object of a version names it, whatever version the other object has, and
  says what the difference says otherwise. -/
  namesVersion : ∀ version p, (Resource.metadata old).resourceVersion = some version →
    conditionalPatch? old new = some p →
      NamesVersion version (Json.diff (Resource.toJson old) (Resource.toJson new)) p
  /-- The patch from an object without a version is the difference. -/
  eq_diff : ∀ p, (Resource.metadata old).resourceVersion = none →
    conditionalPatch? old new = some p →
      p = Json.diff (Resource.toJson old) (Resource.toJson new)
  /-- If the two are written alike the write asks nothing, and comes to the object it began with. -/
  quiet : ∀ place, (Resource.metadata old).identity? = some place →
    Resource.toJson old = Resource.toJson new →
      (∀ t q, ¬(write old new).Asks t q) ∧
        ∀ t r, (write old new).Ends t r ↔ t = [] ∧ r = .ok old
  /-- If they are not, it asks for the patch, and for nothing else. -/
  asks : ∀ ns name, (Resource.metadata old).identity? = some (ns, name) →
    Resource.toJson old ≠ Resource.toJson new →
      ∃ p, conditionalPatch? old new = some p ∧
        ∀ t q, (write old new).Asks t q ↔ t = [] ∧ q = request ns name p
  /-- The API server takes the patch as long as it has the version that was read, and refuses it
  with a conflict afterwards. -/
  taken_iff : ∀ version p, (Resource.metadata old).resourceVersion = some version →
    conditionalPatch? old new = some p →
      ∀ (c : Cluster) path j, c.objects.find? path = some j →
        c.patch path p =
          if metadataText? j "resourceVersion" = some version then
            c.storeAnswering path (p.merge j)
          else
            (Cluster.failure 409 "Conflict"
              ("the object '" ++ Cluster.lastPart path ++ "' has been modified"), c)
  /-- Where a server that checks versions has stored another one by then, the write fails and
  changes nothing, and it fails with a conflict unless the request itself fails. -/
  refused : ∀ ns name version p, (Resource.metadata old).identity? = some (ns, name) →
    (Resource.metadata old).resourceVersion = some version → conditionalPatch? old new = some p →
      ∀ (S : Server) (cause : StoreError → Error) (s : Site) j, S.conditional = true →
        stored s.objects (ns, name) = some j → metadataText? j "resourceVersion" ≠ some version →
          ∃ error, S.run (.store cause (write old new)) s =
              (.done (.error (cause (.ofKube error))),
                s.tell ⟨request ns name p, (request ns name p).failed error⟩ s.objects) ∧
            (S.fate s.said.length = .served → error = outdated)

variable [LawfulResource α] {request : String → String → Json → Question}
  {stored : Objects → String × String → Option Json}
  {send : String → String → Json → Dialogue Tracking (Except Kube.Error α)} {old new : α}

theorem quiet_patchWith {place : String × String}
    (hplace : (Resource.metadata old).identity? = some place)
    (hsame : Resource.toJson old = Resource.toJson new) :
    (∀ t q, ¬(patchWith send old new).Asks t q) ∧
      ∀ t r, (patchWith send old new).Ends t r ↔ t = [] ∧ r = .ok old := by
  have hnone := Object.conditionalPatch?_eq_none_iff_toJson.2 hsame
  constructor
  · intro t q hasks
    obtain ⟨_, _, _, -, hp, -⟩ := asks_patchWith.1 hasks
    cases hnone.symm.trans hp
  · intro t r
    rw [ends_patchWith, hplace, hnone]
    constructor
    · rintro (⟨h, -⟩ | ⟨_, _, -, -, h⟩ | ⟨_, _, _, _, -, h, -⟩)
      · cases h
      · exact h
      · cases h
    · exact fun h => .inr (.inl ⟨place.1, place.2, rfl, rfl, h⟩)

theorem asks_patchWith_of_ne {ns name : String}
    (hplace : (Resource.metadata old).identity? = some (ns, name))
    (hne : Resource.toJson old ≠ Resource.toJson new)
    (hsend : ∀ ns name p t q, (send ns name p).Asks t q ↔ t = [] ∧ q = request ns name p) :
    ∃ p, conditionalPatch? old new = some p ∧
      ∀ t q, (patchWith send old new).Asks t q ↔ t = [] ∧ q = request ns name p := by
  obtain ⟨p, hp⟩ :=
    Option.ne_none_iff_exists'.1 (mt Object.conditionalPatch?_eq_none_iff_toJson.1 hne)
  refine ⟨p, hp, fun t q => ?_⟩
  rw [asks_patchWith, hplace, hp]
  constructor
  · rintro ⟨_, _, _, h, h', hasks⟩
    cases h
    cases h'
    exact (hsend ..).1 hasks
  · exact fun h => ⟨ns, name, p, rfl, rfl, (hsend ..).2 h⟩

/-- A write is conditional if it asks with its one question, and if that fails where the stored
object is not of the version that it names. -/
theorem conditional_patchWith
    (hsend : ∀ ns name p t q, (send ns name p).Asks t q ↔ t = [] ∧ q = request ns name p)
    (hstale : ∀ ns name p, (Resource.metadata old).identity? = some (ns, name) →
      conditionalPatch? old new = some p →
        ∀ (S : Server) (cause : StoreError → Error) (s : Site) j, S.conditional = true →
          stored s.objects (ns, name) = some j → isStale p j = true →
            ∃ error, S.run (.store cause (patchWith send old new)) s =
                (.done (.error (cause (.ofKube error))),
                  s.tell ⟨request ns name p, (request ns name p).failed error⟩ s.objects) ∧
              (S.fate s.said.length = .served → error = outdated)) :
    Conditional request stored (patchWith send) old new where
  patch_eq_none_iff := Object.conditionalPatch?_eq_none_iff_toJson
  namesVersion := (conditionalOn_toJson old new).namesVersion
  eq_diff := (conditionalOn_toJson old new).eq_diff
  quiet _ hplace hsame := quiet_patchWith hplace hsame
  asks _ _ hplace hne := asks_patchWith_of_ne hplace hne hsend
  taken_iff := (conditionalOn_toJson old new).taken_iff
  refused ns name _ p hplace hversion hp S cause s j hchecks hj hother :=
    have hnames := (conditionalOn_toJson old new).namesVersion _ _ hversion hp
    hstale ns name p hplace hp S cause s j hchecks hj ((hnames.isStale_iff j).2 hother)

end

/-! ## Documents, pods and records -/

/-- Every patch between two documents is conditional, whatever they have, and so is every write of a
pod or of a record. Nothing is written where nothing changes. -/
theorem writes_are_conditional :
    (∀ old new : Json, IsDocument old → IsDocument new →
        ∀ version, ConditionalOn version old new) ∧
      (∀ old new : Pod, Conditional .patchPod Objects.pods patchPod old new) ∧
      ∀ old new : Application,
        Conditional .patchApplication Objects.records patchApplication old new := by
  refine ⟨fun _ _ hold hnew => hold.conditionalOn hnew, fun old new => ?_, fun old new => ?_⟩
  · refine conditional_patchWith (fun _ _ _ _ _ => Dialogue.asks_question)
      fun ns name p hplace hp S cause s j hchecks hj hstale => ?_
    obtain ⟨error, herror, hserved⟩ := Server.exists_attempt_error (.patchPod ns name p) rfl rfl
    exact ⟨error, (Server.run_patchPod_of_stale hplace hp hj hchecks hstale).trans herror, hserved⟩
  · refine conditional_patchWith (fun _ _ _ _ _ => Dialogue.asks_question)
      fun ns name p hplace hp S cause s j hchecks hj hstale => ?_
    obtain ⟨error, herror, hserved⟩ :=
      Server.exists_attempt_error (.patchApplication ns name p) rfl rfl
    exact ⟨error, (Server.run_patchApplication_of_stale hplace hp hj hchecks hstale).trans herror,
      hserved⟩

/-- A driver as it was read. -/
def readDriver : Pod :=
  { Setup.pairPod "driver" with metadata.resourceVersion := some "1" }

/-- The driver without finalizers, under a version that it never had. -/
def wantedDriver : Pod :=
  { readDriver with
    metadata.finalizers := none
    metadata.resourceVersion := some "7" }

/-- The driver after somebody else has written it. -/
def overtakenDriver : Pod :=
  { readDriver with metadata.resourceVersion := some "2" }

/-- Where it is stored, before anything is asked. -/
def overtaken : Site where
  objects :=
    { pods := fun place =>
        if place = ("spark", "driver") then some overtakenDriver.toJson else none
      records := fun _ => none }
  said := []

/-- The document of a driver with a note and a node, of which a `Pod` has neither. -/
def notedDriver (note version : String) : Json :=
  .obj [("kind", .str "Pod"),
    ("metadata", .obj [("annotations", .obj [("note", .str note)]), ("name", .str "driver"),
      ("resourceVersion", .str version)]),
    ("spec", .obj [("nodeName", .str "a")])]

theorem isDocument_notedDriver (note version : String) :
    IsDocument (notedDriver note version) where
  isValue := by
    have hplain : (notedDriver note version).Plain := by
      simp +decide [notedDriver, Json.plain_obj, Assoc.Ascending]
    exact hplain.isValue
  exists_metadata := ⟨_, rfl⟩
  version_ne_obj _ := nofun

theorem writes_are_conditional_overtaken :
    (patchBetween? (some "1") (notedDriver "first" "1") (notedDriver "first" "1") = none ∧
      ∃ p, patchBetween? (some "1") (notedDriver "first" "1") (notedDriver "second" "7") =
          some p ∧
        p.at? ["metadata", "resourceVersion"] = some (.str "1") ∧
        p.at? ["metadata", "annotations", "note"] = some (.str "second") ∧
        p.at? ["spec"] = none) ∧
    (∀ t q, ¬(patchPod readDriver readDriver).Asks t q) ∧
      ∃ p, conditionalPatch? readDriver wantedDriver = some p ∧
        p.at? ["metadata", "resourceVersion"] = some (.str "1") ∧
        p.at? ["metadata", "finalizers"] = some .null ∧
        ∀ cause : StoreError → Error,
          (Server.serving fun _ _ _ => none).run (.store cause (patchPod readDriver wantedDriver))
              overtaken =
            (.done (.error (cause (.ofKube outdated))),
              overtaken.tell
                ⟨.patchPod "spark" "driver" p, (.error outdated : Except Kube.Error Pod)⟩
                overtaken.objects) := by
  have hdocuments (note version : String) := writes_are_conditional.1 _ _
    (isDocument_notedDriver "first" "1") (isDocument_notedDriver note version) (some "1")
  have hsame := writes_are_conditional.2.1 readDriver readDriver
  have hwrite := writes_are_conditional.2.1 readDriver wantedDriver
  refine ⟨⟨(hdocuments "first" "1").eq_none_iff.2 (Json.same_self _), ?_⟩,
    (hsame.quiet ("spark", "driver") rfl rfl).1, ?_⟩
  · obtain ⟨p, hp⟩ : ∃ p,
        patchBetween? (some "1") (notedDriver "first" "1") (notedDriver "second" "7") = some p :=
      ⟨_, rfl⟩
    have hnames := (hdocuments "second" "7").namesVersion "1" p rfl hp
    refine ⟨p, hp, hnames.at?_version, ?_, ?_⟩
    · rw [hnames.at?_eq _ (by decide)]
      rfl
    · rw [hnames.at?_eq _ (by decide)]
      rfl
  obtain ⟨p, hp⟩ : ∃ p, conditionalPatch? readDriver wantedDriver = some p := ⟨_, rfl⟩
  have hnames := hwrite.namesVersion "1" p rfl hp
  refine ⟨p, hp, hnames.at?_version, ?_, fun cause => ?_⟩
  · rw [hnames.at?_eq _ (by decide)]
    rfl
  · obtain ⟨error, hrun, hserved⟩ := hwrite.refused "spark" "driver" "1" p rfl rfl hp
      (.serving fun _ _ _ => none) cause overtaken overtakenDriver.toJson rfl rfl
      (by decide +kernel)
    rw [hrun, hserved rfl]
    rfl

end SparkLedger.Tracker
