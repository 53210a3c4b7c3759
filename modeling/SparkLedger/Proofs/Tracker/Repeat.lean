import SparkLedger.Proofs.Tracker.Again

/-!
# Reconciles that are repeated

A reconcile that came to its end leaves nothing to be done: as long as the sources answer alike and
nobody else writes, another one comes to the same end and writes nothing.

* `reconcile_idempotent`: the second reconcile only reads.
-/

namespace SparkLedger.Tracker

open Info (Sources)

variable {S S' : Server} {s s' : Site} {runningRequeue : Seconds} {ns name : String}
  {sources : Sources} {outcome : Outcome}

/-- A reconcile after one that came to its end comes to the same end, and only reads. -/
theorem reconcile_idempotent (hroom : sources.LeavesRoom) (hinfo : S.info = sources.info?)
    (ho : s.objects.Sound)
    (hrun : S.run (reconcile runningRequeue ns name) s = (.done (.ok outcome), s'))
    (hne : outcome ≠ .requeueNow) (hinfo' : S'.info = sources.info?) (hS' : S'.Serves) :
    ∃ t, Reads t ∧
      S'.run (reconcile runningRequeue ns name) s' = (.done (.ok outcome), s'.hear t) := by
  rcases Server.run_reconcile hinfo ho with
    ⟨r, t, -, hstops, hr⟩ | ⟨hidle, t, -, hdone⟩ | ⟨j, pod, t, -, -, -, hheld⟩ |
      ⟨C, t, -, -, -, hplan⟩
  · cases hstops.symm.trans hrun
    exact absurd rfl (hr outcome)
  · cases hdone.symm.trans hrun
    exact Server.run_reconcile_of_idle hS' hidle
  · obtain ⟨_, _, -, hreturn⟩ := Server.run_bind_eq_ok_iff.1 (hheld.symm.trans hrun)
    cases hreturn
    exact absurd rfl hne
  · replace hrun := hplan.symm.trans hrun
    have hreadable := Course.readable_of_run (s := s.hear t) (C := C) hrun
    obtain ⟨rfl, uid, version, hreached⟩ :=
      (Course.ensures_carriedOut (s := s.hear t) (C := C) hreadable).ok _ _ hrun
    obtain ⟨C₁, hresumes⟩ := Course.exists_resumes hroom (C := C) .final hreached
    obtain ⟨t', ht', hagain⟩ := Server.run_reconcile_of_course hS' hinfo' C₁
    have hrecord : C₁.plan.record = C₁.existing := by rw [hresumes.plan_eq]
    have hfinal : C₁.finalPod "" = C₁.pod := by
      rw [hresumes.finalPod_eq .final, hresumes.pod_eq]
    have hdone : S'.run (C₁.plan.carriedOut C₁.pod C₁.existing) (s'.hear t') =
        (.done (.ok C₁.plan.outcome), s'.hear t') :=
      Course.run_carriedOut_of_done (s := s'.hear t') (C := C₁) hrecord (hresumes.ownedPod_eq "")
        hfinal
    refine ⟨t', ht', hagain.trans (hdone.trans ?_)⟩
    rw [hresumes.plan_eq]

/-- A driver is let go with its stages counted for the first time, and is left alone then. -/
theorem reconcile_idempotent_leaving :
    let S := Server.serving Sources.historical.info?
    ∃ s' t, S.run (reconcile .ten "spark" "driver") ⟨.leaving, []⟩ = (.done (.ok .noRequeue), s') ∧
      Reads t ∧
      S.run (reconcile .ten "spark" "driver") s' = (.done (.ok .noRequeue), s'.hear t) := by
  intro S
  have houtcome : outcome? (S.run (reconcile .ten "spark" "driver") ⟨.leaving, []⟩).1 =
      some .noRequeue := by decide +kernel
  obtain ⟨s', hrun⟩ := exists_of_outcome? houtcome
  obtain ⟨t, ht, hagain⟩ : ∃ t, Reads t ∧
      S.run (reconcile .ten "spark" "driver") s' = (.done (.ok .noRequeue), s'.hear t) :=
    reconcile_idempotent (s := ⟨.leaving, []⟩) Sources.leavesRoom_historical rfl
      Objects.sound_leaving hrun nofun rfl fun _ => rfl
  exact ⟨s', t, hrun, ht, hagain⟩

end SparkLedger.Tracker
