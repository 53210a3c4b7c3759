import Mathlib.Data.Set.Function
import SparkLedger.Dialogue

/-!
# Dialogues that are held

What becomes of a dialogue with an environment that has a state, and of two dialogues that keep to
different parts of the state.

* `hold_ask`, `hold_bind`: a question, and one dialogue after the other.
* `AsksOnly`: what is asked on the way. `asksOnly_bind`: of one dialogue after the other.
* `Environment.Local`: an environment that keeps places, and looks at one place for each question.
* `AsksOnly.frame`: a dialogue leaves the places alone that it does not ask about.
  `AsksOnly.hold_congr`: it depends on no others.
* `AsksOnly.hold_comm`: dialogues about different places can be held in either order.
-/

namespace SparkLedger.Dialogue

variable {I : Interface} {α β σ : Type}

theorem hold_ask (env : Environment I σ) (q : I.Question) (next : I.Answer q → Dialogue I α)
    (s : σ) :
    (Dialogue.ask q next).hold env s = match env.answer q s with
      | (some a, s) => (next a).hold env s
      | (none, s) => (.stalled, s) := by
  cases h : env.answer q s with
  | mk a? s' => cases a? <;> simp only [hold, h]

theorem hold_bind (env : Environment I σ) (d : Dialogue I α) (f : α → Dialogue I β) (s : σ) :
    (d.bind f).hold env s = match d.hold env s with
      | (.done a, s) => (f a).hold env s
      | (.stalled, s) => (.stalled, s)
      | (.broken o, s) => (.broken o, s) := by
  induction d generalizing s with
  | done a => rfl
  | ask q next ih =>
    rw [bind, hold_ask, hold_ask]
    cases env.answer q s with
    | mk a? s' =>
      cases a? with
      | none => rfl
      | some a => exact ih a s'
  | note line next ih => exact ih _
  | broken o => rfl

/-! ## What is asked -/

/-- Every question has the property that is asked when the dialogue is held from this state. -/
def AsksOnly (env : Environment I σ) (p : I.Question → Prop) : Dialogue I α → σ → Prop
  | .done _, _ => True
  | .ask q next, s => p q ∧ ∀ a s', env.answer q s = (some a, s') → (next a).AsksOnly env p s'
  | .note line next, s => next.AsksOnly env p (env.note line s)
  | .broken _, _ => True

section

variable {env : Environment I σ} {p : I.Question → Prop} {q : I.Question} {s s' : σ}
  {next : I.Answer q → Dialogue I α}

theorem asksOnly_ask_of_some {a : I.Answer q} (h : env.answer q s = (some a, s')) :
    (Dialogue.ask q next).AsksOnly env p s ↔ p q ∧ (next a).AsksOnly env p s' := by
  rw [AsksOnly, h]
  refine and_congr_right fun _ => ⟨fun hnext => hnext a s' rfl, ?_⟩
  rintro hnext _ _ ⟨⟩
  exact hnext

theorem asksOnly_ask_of_none (h : env.answer q s = (none, s')) :
    (Dialogue.ask q next).AsksOnly env p s ↔ p q := by
  rw [AsksOnly, h]
  exact and_iff_left fun _ _ h => by cases h

theorem asksOnly_bind {d : Dialogue I α} {f : α → Dialogue I β} :
    (d.bind f).AsksOnly env p s ↔
      d.AsksOnly env p s ∧ ∀ a s', d.hold env s = (.done a, s') → (f a).AsksOnly env p s' := by
  induction d generalizing s with
  | done a =>
    refine ⟨fun h => ⟨trivial, ?_⟩, fun h => h.2 a s rfl⟩
    rintro _ _ ⟨⟩
    exact h
  | ask q next ih =>
    rw [bind, hold_ask]
    rcases h : env.answer q s with ⟨_ | a, s₁⟩
    · rw [asksOnly_ask_of_none h, asksOnly_ask_of_none h]
      exact (and_iff_left fun _ _ h => by cases h).symm
    · rw [asksOnly_ask_of_some h, asksOnly_ask_of_some h, ih a, and_assoc]
  | note line next ih => exact ih
  | broken o => exact ⟨fun _ => ⟨trivial, fun _ _ h => by cases h⟩, fun _ => trivial⟩

end

/-! ## Places -/

variable {ι V : Type}

/-- The state of the environment is what `look` sees in places, each question is about one place
at most, and its answer and its effect are a matter of that place. -/
structure Environment.Local (env : Environment I σ) (look : σ → ι → V)
    (about : I.Question → Option ι) : Prop where
  note : ∀ line s, env.note line s = s
  answer_eq : ∀ q s s', (∀ i, about q = some i → look s i = look s' i) →
    (env.answer q s).1 = (env.answer q s').1 ∧
      ∀ i, about q = some i → look (env.answer q s).2 i = look (env.answer q s').2 i
  frame : ∀ q s i, about q ≠ some i → look (env.answer q s).2 i = look s i

/-- Questions about these places. -/
def About (about : I.Question → Option ι) (P : Set ι) (q : I.Question) : Prop :=
  ∀ i, about q = some i → i ∈ P

section

variable {env : Environment I σ} {look : σ → ι → V} {about : I.Question → Option ι} {P P' : Set ι}
  {d : Dialogue I α} {d' : Dialogue I β} {s s' : σ}

/-- States that agree on a set of places answer a question about it alike, and agree afterwards. -/
theorem Environment.Local.exists_answer (hlocal : env.Local look about)
    (hs : Set.EqOn (look s) (look s') P) {q : I.Question} (hq : About about P q) :
    ∃ a t t', env.answer q s = (a, t) ∧ env.answer q s' = (a, t') ∧
      Set.EqOn (look t) (look t') P := by
  obtain ⟨hanswer, hlook⟩ := hlocal.answer_eq q s s' fun i hi => hs (hq i hi)
  refine ⟨_, _, (env.answer q s').2, rfl, Prod.ext hanswer.symm rfl, fun i hi => ?_⟩
  by_cases hi' : about q = some i
  · exact hlook i hi'
  · rw [hlocal.frame q s i hi', hlocal.frame q s' i hi', hs hi]

namespace AsksOnly

/-- A dialogue that keeps to a set of places leaves all others alone. -/
theorem frame (hlocal : env.Local look about) (h : d.AsksOnly env (About about P) s) :
    Set.EqOn (look (d.hold env s).2) (look s) Pᶜ := by
  induction d generalizing s with
  | done a => exact Set.eqOn_refl _ _
  | ask q next ih =>
    rw [hold_ask]
    have hq := h.1
    have hask (i : ι) (hi : i ∈ Pᶜ) : look (env.answer q s).2 i = look s i :=
      hlocal.frame q s i fun h => hi (hq i h)
    rcases ha : env.answer q s with ⟨_ | a, s₁⟩
    all_goals rw [ha] at hask
    · exact hask
    · exact (ih a ((asksOnly_ask_of_some ha).1 h).2).trans hask
  | note line next ih =>
    rw [hold, hlocal.note]
    rw [AsksOnly, hlocal.note] at h
    exact ih h
  | broken o => exact Set.eqOn_refl _ _

/-- A dialogue that keeps to a set of places does so from any state that agrees there. -/
theorem congr (hlocal : env.Local look about) (h : d.AsksOnly env (About about P) s)
    (hs : Set.EqOn (look s) (look s') P) : d.AsksOnly env (About about P) s' := by
  induction d generalizing s s' with
  | done a => trivial
  | ask q next ih =>
    obtain ⟨a, t, t', ha, ha', ht⟩ := hlocal.exists_answer hs h.1
    cases a with
    | none => exact (asksOnly_ask_of_none ha').2 h.1
    | some a => exact (asksOnly_ask_of_some ha').2 ⟨h.1, ih a ((asksOnly_ask_of_some ha).1 h).2 ht⟩
  | note line next ih =>
    rw [AsksOnly, hlocal.note] at h ⊢
    exact ih h hs
  | broken o => trivial

/-- A dialogue that keeps to a set of places ends alike from states that agree there. -/
theorem hold_congr (hlocal : env.Local look about) (h : d.AsksOnly env (About about P) s)
    (hs : Set.EqOn (look s) (look s') P) :
    (d.hold env s).1 = (d.hold env s').1 ∧
      Set.EqOn (look (d.hold env s).2) (look (d.hold env s').2) P := by
  induction d generalizing s s' with
  | done a => exact ⟨rfl, hs⟩
  | ask q next ih =>
    obtain ⟨a, t, t', ha, ha', ht⟩ := hlocal.exists_answer hs h.1
    rw [hold_ask, hold_ask, ha, ha']
    cases a with
    | none => exact ⟨rfl, ht⟩
    | some a => exact ih a ((asksOnly_ask_of_some ha).1 h).2 ht
  | note line next ih =>
    rw [hold, hold, hlocal.note, hlocal.note]
    rw [AsksOnly, hlocal.note] at h
    exact ih h hs
  | broken o => exact ⟨rfl, hs⟩

/-- Dialogues that keep to different places come to the same in either order. -/
theorem hold_comm (hlocal : env.Local look about) (h : d.AsksOnly env (About about P) s)
    (h' : d'.AsksOnly env (About about P') s) (hapart : ∀ i ∈ P, i ∉ P') :
    (d'.hold env (d.hold env s).2).1 = (d'.hold env s).1 ∧
      (d.hold env (d'.hold env s).2).1 = (d.hold env s).1 ∧
      look (d'.hold env (d.hold env s).2).2 = look (d.hold env (d'.hold env s).2).2 := by
  have hon : Set.EqOn (look s) (look (d'.hold env s).2) P :=
    fun i hi => (h'.frame hlocal (hapart i hi)).symm
  have hon' : Set.EqOn (look s) (look (d.hold env s).2) P' :=
    fun i hi => (h.frame hlocal fun hP => hapart i hP hi).symm
  obtain ⟨hend, hlook⟩ := h.hold_congr hlocal hon
  obtain ⟨hend', hlook'⟩ := h'.hold_congr hlocal hon'
  have hframe := (h.congr hlocal hon).frame hlocal
  have hframe' := (h'.congr hlocal hon').frame hlocal
  refine ⟨hend'.symm, hend.symm, funext fun i => ?_⟩
  by_cases hi : i ∈ P
  · rw [hframe' (hapart i hi), hlook hi]
  by_cases hi' : i ∈ P'
  · rw [hframe hi, ← hlook' hi']
  · rw [hframe' hi', hframe hi, h.frame hlocal hi, h'.frame hlocal hi']

end AsksOnly

end

end SparkLedger.Dialogue
