import SparkLedger.Proofs.Object.Stored
import SparkLedger.Proofs.Tracker.Roster

/-!
# The members that a reconcile writes

A record has many writers, and each of them owns some of its members. A reconcile edits a copy of
the whole record and sends the difference, so which members it touches shows only in that
difference.

* `Application.specPatch`: a patch of members of the specification only.
  `Application.exists_specPatch`: so is every patch between records with the same metadata, and it
  mentions only members that differ.
* `record_patch_keeps_to_its_members`: what the patches of the two roles mention.
-/

namespace SparkLedger

open Json (diff diffMember changed added find?_diff find?_present_cons)

namespace Application

open Object (conditionalPatch?)

/-! ## Patches of a specification -/

/-- The patch that gives members of the specification, and names the version of the record if it
has one. -/
def specPatch (a : Application) (d : List (String × Json)) : Json :=
  .obj (("spec", .obj d) :: a.metadata.resourceVersion.elim []
    fun version => [("metadata", .obj [("resourceVersion", .str version)])])

variable {a b : Application} {p : Json}

/-- The difference between specifications, member by member. -/
private theorem exists_diff_spec (hne : b.spec ≠ a.spec) :
    ∃ d, diff a.spec.toJson b.spec.toJson = .obj d ∧ Assoc.Distinct d ∧ d ≠ [] ∧
      ∀ k, Assoc.find? k d = diffMember (Assoc.find? k a.spec.toJson.members)
        (Assoc.find? k b.spec.toJson.members) := by
  have ha := (Json.plain_obj.1 (Spec.faithful.plain a.spec)).1.distinct
  have hb := (Json.plain_obj.1 (Spec.faithful.plain b.spec)).1.distinct
  refine ⟨_, rfl, Json.distinct_diff ha hb, fun hnil => hne ?_, find?_diff ha _⟩
  have hmerge := Object.merge_diff_of_plain (Spec.faithful.plain a.spec)
    (Spec.faithful.plain b.spec)
  rw [show diff a.spec.toJson b.spec.toJson = .obj [] from congrArg Json.obj hnil, Json.merge,
    Json.mergeMembers] at hmerge
  exact (Spec.faithful.inj hmerge).symm

/-- A patch between records with the same metadata is one of their specifications. It mentions
the members that differ, and there is one. -/
theorem exists_specPatch (hp : conditionalPatch? a b = some p) (hmeta : b.metadata = a.metadata) :
    b ≠ a ∧ ∃ d, p = a.specPatch d ∧ Assoc.Distinct d ∧ d ≠ [] ∧
      ∀ k, Assoc.find? k d = diffMember (Assoc.find? k a.spec.toJson.members)
        (Assoc.find? k b.spec.toJson.members) := by
  have hne : b ≠ a := by
    rintro rfl
    cases (Object.conditionalPatch?_self b).symm.trans hp
  have hspec : b.spec ≠ a.spec := fun h => hne (Application.ext hmeta h)
  obtain ⟨d, hd, hdistinct, hnonempty, hfind⟩ := exists_diff_spec hspec
  refine ⟨hne, d, ?_, hdistinct, hnonempty, hfind⟩
  have hchanged : b.spec.toJson.same a.spec.toJson = false :=
    Bool.eq_false_iff.2 fun hsame => hspec (Spec.faithful.eq_of_same hsame)
  have hdiff : diff (Object.Resource.toJson a) (Object.Resource.toJson b) =
      .obj [("spec", .obj d)] := by
    change diff a.toJson b.toJson = _
    simp [toJson, hmeta, diff, changed, added, Assoc.find?_cons, Json.same_self, hchanged, hd]
  rw [Object.conditionalPatch?_eq, hdiff, if_neg (by simp [Json.isEmptyPatch]),
    show Object.Resource.metadata a = a.metadata from rfl] at hp
  rw [← Option.some.inj hp, specPatch]
  cases a.metadata.resourceVersion <;> rfl

/-- Only members that differ are mentioned. -/
theorem find?_ne_of_mem {d : List (String × Json)}
    (hfind : ∀ k, Assoc.find? k d = diffMember (Assoc.find? k a.spec.toJson.members)
      (Assoc.find? k b.spec.toJson.members)) {k : String} (hk : k ∈ d.map (·.1)) :
    Assoc.find? k b.spec.toJson.members ≠ Assoc.find? k a.spec.toJson.members := by
  intro hsame
  obtain ⟨m, hm, rfl⟩ := List.mem_map.1 hk
  have hnone := hfind m.1
  rw [hsame, Json.diffMember_self, Assoc.find?_eq_none_iff] at hnone
  exact hnone m hm rfl

namespace Spec

variable {s s' : Spec} {pod : Pod}

/-! ## Executors -/

theorem find?_executors (s : Spec) :
    Assoc.find? "executors" s.toJson.members =
      some (.arr (s.executors.map Pod.Snapshot.toJson)) := by
  simp [toJson, Json.ofPresent_eq, Json.members, find?_present_cons]

theorem find?_executors_of_ne (s : Spec) (es : List Pod.Snapshot) {k : String}
    (hk : k ≠ "executors") :
    Assoc.find? k { s with executors := es }.toJson.members = Assoc.find? k s.toJson.members := by
  simp only [toJson, Json.ofPresent_eq, Json.members, find?_present_cons, if_neg hk.symm]

/-- Where only executors differ, only they are mentioned, and as a whole. -/
theorem eq_executors_of_mentions {d : List (String × Json)} {es : List Pod.Snapshot}
    (hdistinct : Assoc.Distinct d) (hd : d ≠ [])
    (hfind : ∀ k, Assoc.find? k d = diffMember (Assoc.find? k s.toJson.members)
      (Assoc.find? k { s with executors := es }.toJson.members)) :
    d = [("executors", .arr (es.map Pod.Snapshot.toJson))] := by
  have hkey : ∀ m ∈ d, m.1 = "executors" := by
    intro m hm
    by_contra hk
    have hnone := hfind m.1
    rw [find?_executors_of_ne s es hk, Json.diffMember_self, Assoc.find?_eq_none_iff] at hnone
    exact hnone m hm rfl
  obtain ⟨⟨k, v⟩, rest, rfl⟩ := List.exists_cons_of_ne_nil hd
  obtain ⟨rfl, hrest⟩ := List.forall_mem_cons.1 hkey
  obtain rfl : rest = [] := by
    refine List.eq_nil_iff_forall_not_mem.2 fun m hm => ?_
    exact (List.pairwise_cons.1 hdistinct).1 m hm (hrest m hm).symm
  have hv := hfind "executors"
  rw [find?_executors, find?_executors, Assoc.find?_cons, if_pos rfl, diffMember] at hv
  split at hv
  · cases hv
  · cases hv
    rfl

/-! ## Drivers -/

theorem find?_applicationId (s : Spec) :
    Assoc.find? "applicationId" s.toJson.members = some (.str s.applicationId) := by
  simp [toJson, Json.ofPresent_eq, Json.members, find?_present_cons]

/-- Without a fetch only what the pod tells is recorded, and of that only what is not known yet. -/
private theorem find?_named_withDriver {heritage : Heritage} {name k : String}
    (hheritage : s.heritageWith? pod = some heritage) (hdriver : k ≠ "driver")
    (hknown : k = "heritage" → s.heritage ≠ none)
    (hnamed : k = "applicationName" → s.applicationName ≠ "") :
    Assoc.find? k ((s.withDriver pod heritage).named name).toJson.members =
      Assoc.find? k s.toJson.members := by
  by_cases hk : k = "heritage"
  · obtain ⟨h, hh⟩ := Option.ne_none_iff_exists'.1 (hknown hk)
    have hsame : heritage = h := by simpa [heritageWith?, hh] using hheritage.symm
    simp [hk, hh, hsame, named, withDriver, toJson, Json.ofPresent_eq, Json.members,
      find?_present_cons]
  by_cases hk' : k = "applicationName"
  · simp [hk', hnamed hk', named, withDriver, toJson, Json.ofPresent_eq, Json.members,
      find?_present_cons]
  · simp only [named, withDriver, toJson, Json.ofPresent_eq, Json.members, find?_present_cons,
      if_neg (Ne.symm hdriver), if_neg (Ne.symm hk), if_neg (Ne.symm hk')]

/-- A driver's reconcile keeps the executors and the id, and if it has fetched nothing it keeps
everything but the driver, a heritage that is not known yet, and a name that is empty. -/
theorem Recorded.eq_or_of_find?_ne {r : Except Info.Error Info} (h : s.Recorded pod r s')
    {k : String} (hk : Assoc.find? k s'.toJson.members ≠ Assoc.find? k s.toJson.members) :
    (k ≠ "executors" ∧ k ≠ "applicationId") ∧ ∀ error, r = .error error →
      k = "driver" ∨ (k = "heritage" ∧ s.heritage = none) ∨
        (k = "applicationName" ∧ s.applicationName = "") := by
  refine ⟨⟨?_, ?_⟩, ?_⟩
  · rintro rfl
    exact hk (by rw [find?_executors, find?_executors, h.executors_eq])
  · rintro rfl
    exact hk (by rw [find?_applicationId, find?_applicationId, h.applicationId_eq])
  · rintro error rfl
    cases h with
    | unfetched _ name hheritage =>
      by_contra hother
      rw [not_or, not_or, not_and, not_and] at hother
      exact hk (find?_named_withDriver hheritage hother.1 hother.2.1 hother.2.2)

end Spec

end Application

namespace Tracker

open Application (Spec)
open Dialogue (Transcript)
open Object (conditionalPatch?)

variable {runningRequeue : Seconds} {ns name : String} {t : Transcript Tracking}

/-- A patch of a record is sent only if it changes the record, and mentions what it changes and the
version only: of an executor's reconcile the list of executors, with that executor put into it; of a
driver's reconcile neither that list nor the id of the application, and if the fetch has failed
nothing but the driver, a heritage that was not known, and a name that was empty. -/
theorem record_patch_keeps_to_its_members {ns' name' : String} {p : Json}
    (h : (reconcile runningRequeue ns name).run.Asks t (.patchApplication ns' name' p)) :
    ∃ pod applicationId role stored new t' d,
      pod.member? = some (applicationId, role) ∧
      t = opening ns name pod applicationId (some stored) ++ t' ∧
      stored.metadata.identity? = some (ns', name') ∧
      Revised ns name t (some stored) new ∧ new ≠ stored ∧
      p.merge stored.toJson = new.toJson ∧ p = stored.specPatch d ∧ d ≠ [] ∧
      match role with
      | .executor => t' = [] ∧ ∃ uid, pod.metadata.uid = some uid ∧
          Spec.Put uid pod stored.spec.executors new.spec.executors ∧
          d = [("executors", .arr (new.spec.executors.map Pod.Snapshot.toJson))]
      | .driver => ∃ r, t' = [fetching pod applicationId stored r] ∧
          ∀ k ∈ d.map (·.1), (k ≠ "executors" ∧ k ≠ "applicationId") ∧
            ∀ error, r = .error error →
              k = "driver" ∨ (k = "heritage" ∧ stored.spec.heritage = none) ∨
                (k = "applicationName" ∧ stored.spec.applicationName = "") := by
  rcases asks_reconcile h with ⟨-, hq⟩ | ⟨_, _, -, hpatch⟩ | ⟨pod, id, role, hmember, hrest⟩
  · cases hq
  · exact hpatch.elim
  rcases hrest with ⟨-, hq⟩ | ⟨existing, t', rfl, ⟨rfl, htrack⟩ | ⟨rfl, htrack⟩⟩
  · cases hq
  · obtain ⟨uid, stored, _, _, p, huid, rfl, hplace, hp, rfl, hq⟩ := asks_trackExecutor htrack
    cases hq
    obtain ⟨hne, d, hd, hdistinct, hnonempty, hfind⟩ := Application.exists_specPatch hp rfl
    refine ⟨pod, id, .executor, stored, _, [], d, hmember, rfl, hplace, ?_, hne,
      Object.merge_conditionalPatch? hp rfl, hd, hnonempty, rfl, uid, huid,
      Spec.put_putExecutor uid pod _, ?_⟩
    · rw [List.append_nil]
      exact .executor huid
    · exact Spec.eq_executors_of_mentions hdistinct hnonempty hfind
  · rcases htrack with
      ⟨_, _, -, -, hq⟩ | ⟨start, heritage, r, spec, rfl, hr, stored, rfl, hplace, hp⟩
    · cases hq
    · obtain ⟨_, _, -, hstart⟩ := hr.start_eq
      have hsame : start = stored := hstart
      subst hsame
      obtain ⟨hne, d, hd, hdistinct, hnonempty, hfind⟩ := Application.exists_specPatch hp rfl
      refine ⟨pod, id, .driver, start, _, _, d, hmember, rfl, hplace,
        .driver hstart hr.recorded, hne, Object.merge_conditionalPatch? hp rfl, hd, hnonempty, r,
        rfl, fun k hk => ?_⟩
      exact hr.recorded.eq_or_of_find?_ne (Application.find?_ne_of_mem hfind hk)

/-! A driver of a known application is seen again, and nobody serves its API. -/

section

open Setup (pair pairPod)

/-- The record of an application that has run for a while. -/
def knownRecord : Application :=
  { Application.template "spark" "app" with
    metadata.resourceVersion := some "7"
    spec.applicationName := "pi"
    spec.heritage := some .submit
    spec.driver := some { Pod.Snapshot.ofPod (pairPod "driver") with phase := some "Pending" }
    spec.executors := [.ofPod (pairPod "executor")] }

theorem record_patch_keeps_to_its_members_unfetched :
    ∃ p d, (pair.work 0).Asks
        (opening "spark" "driver" (pairPod "driver") "app" (some knownRecord) ++
          [fetching (pairPod "driver") "app" knownRecord (.error .noClient)])
        (.patchApplication "spark" "app" p) ∧
      p = knownRecord.specPatch d ∧ d ≠ [] ∧ ∀ k ∈ d.map (·.1), k = "driver" := by
  let new : Application := { knownRecord with
    spec := (knownRecord.spec.withDriver (pairPod "driver") .submit).named "driver" }
  let p := (conditionalPatch? knownRecord new).get rfl
  have hasks : (pair.work 0).Asks
      (opening "spark" "driver" (pairPod "driver") "app" (some knownRecord) ++
        [fetching (pairPod "driver") "app" knownRecord (.error .noClient)])
      (.patchApplication "spark" "app" p) :=
    .inr ⟨_, _, rfl, .inr ⟨_, _, rfl, .inr ⟨_, _, rfl, .inl ⟨rfl, rfl⟩⟩⟩⟩
  obtain ⟨pod, id, role, stored, _, t', d, hmember, ht, -, -, -, -, hp, hd, hrest⟩ :=
    record_patch_keeps_to_its_members hasks
  obtain ⟨hopening, rfl⟩ := List.append_inj ht rfl
  cases hopening
  cases hmember
  obtain ⟨r, hr, hkeys⟩ := hrest
  cases hr
  refine ⟨p, d, hasks, hp, hd, fun k hk => ?_⟩
  rcases (hkeys k hk).2 .noClient rfl with h | ⟨-, h⟩ | ⟨-, h⟩
  · exact h
  · cases h
  · exact absurd h (by decide)

end

end Tracker

end SparkLedger
