import SparkLedger.Dialogue

/-!
# Conversations

What a dialogue can come to when it is held, whoever answers: which questions it asks after which
exchanges, and how it ends. Log lines do not count as exchanges.

* `Asks`, `Ends`: the question after a transcript, and the result after a transcript.
* `asks_bind`, `ends_bind`: the conversations of one dialogue after the other.
* `asks_run_bind`, `ends_run_bind_ok`, `ends_run_bind_error`: the same where the first may fail.
* `Relayed`, `asks_via`, `ends_via`: a conversation held by means of another interface.
* `EndsSaying`: the lines that a dialogue has written when it ends.
* `eq_of_ends`: the exchanges decide how a dialogue ends.
* `asks_of_ends`, `not_asks_of_ends`: a dialogue has asked what was exchanged, and asks nothing
  more once it is done.
-/

namespace SparkLedger.Dialogue

variable {I J K : Interface} {α β ε : Type}

/-- A question and its answer. -/
structure Exchange (I : Interface) where
  question : I.Question
  answer : I.Answer question

/-- The exchanges of a conversation so far, the first one first. -/
abbrev Transcript (I : Interface) := List (Exchange I)

/-- After these exchanges the dialogue asks this. -/
def Asks : Dialogue I α → Transcript I → I.Question → Prop
  | .done _, _, _ => False
  | .ask q next, t, q' => (t = [] ∧ q' = q) ∨ ∃ a t', t = ⟨q, a⟩ :: t' ∧ (next a).Asks t' q'
  | .note _ next, t, q' => next.Asks t q'
  | .broken _, _, _ => False

/-- After these exchanges the dialogue is done, with this result. -/
def Ends : Dialogue I α → Transcript I → α → Prop
  | .done a, t, b => t = [] ∧ b = a
  | .ask q next, t, b => ∃ a t', t = ⟨q, a⟩ :: t' ∧ (next a).Ends t' b
  | .note _ next, t, b => next.Ends t b
  | .broken _, _, _ => False

/-! ## One dialogue after the other -/

section

variable {t : Transcript I} {q : I.Question}

theorem ends_bind {d : Dialogue I α} {f : α → Dialogue I β} {b : β} :
    (d.bind f).Ends t b ↔ ∃ t₁ t₂ a, t = t₁ ++ t₂ ∧ d.Ends t₁ a ∧ (f a).Ends t₂ b := by
  induction d generalizing t with
  | done a =>
    constructor
    · exact fun h => ⟨[], t, a, rfl, ⟨rfl, rfl⟩, h⟩
    · rintro ⟨t₁, t₂, a', rfl, ⟨rfl, rfl⟩, h⟩
      exact h
  | ask q next ih =>
    constructor
    · rintro ⟨a, t', rfl, h⟩
      obtain ⟨t₁, t₂, c, rfl, hc, h⟩ := (ih a).1 h
      exact ⟨⟨q, a⟩ :: t₁, t₂, c, rfl, ⟨a, t₁, rfl, hc⟩, h⟩
    · rintro ⟨t₁, t₂, c, rfl, ⟨a, t', rfl, hc⟩, h⟩
      exact ⟨a, t' ++ t₂, rfl, (ih a).2 ⟨t', t₂, c, rfl, hc, h⟩⟩
  | note line next ih => exact ih
  | broken o =>
    constructor
    · exact False.elim
    · rintro ⟨t₁, t₂, a, rfl, h, -⟩
      exact h

theorem asks_bind {d : Dialogue I α} {f : α → Dialogue I β} :
    (d.bind f).Asks t q ↔
      d.Asks t q ∨ ∃ t₁ t₂ a, t = t₁ ++ t₂ ∧ d.Ends t₁ a ∧ (f a).Asks t₂ q := by
  induction d generalizing t with
  | done a =>
    constructor
    · exact fun h => .inr ⟨[], t, a, rfl, ⟨rfl, rfl⟩, h⟩
    · rintro (h | ⟨t₁, t₂, a', rfl, ⟨rfl, rfl⟩, h⟩)
      · exact h.elim
      · exact h
  | ask q' next ih =>
    constructor
    · rintro (h | ⟨a, t', rfl, h⟩)
      · exact .inl (.inl h)
      · rcases (ih a).1 h with h | ⟨t₁, t₂, c, rfl, hc, h⟩
        · exact .inl (.inr ⟨a, t', rfl, h⟩)
        · exact .inr ⟨⟨q', a⟩ :: t₁, t₂, c, rfl, ⟨a, t₁, rfl, hc⟩, h⟩
    · rintro ((h | ⟨a, t', rfl, h⟩) | ⟨t₁, t₂, c, rfl, ⟨a, t', rfl, hc⟩, h⟩)
      · exact .inl h
      · exact .inr ⟨a, t', rfl, (ih a).2 (.inl h)⟩
      · exact .inr ⟨a, t' ++ t₂, rfl, (ih a).2 (.inr ⟨t', t₂, c, rfl, hc, h⟩)⟩
  | note line next ih => exact ih
  | broken o =>
    constructor
    · exact False.elim
    · rintro (h | ⟨t₁, t₂, a, rfl, h, -⟩) <;> exact h

theorem asks_question {q' : I.Question} : (question q).Asks t q' ↔ t = [] ∧ q' = q := by
  constructor
  · rintro (h | ⟨a, t', rfl, h⟩)
    · exact h
    · exact h.elim
  · exact .inl

theorem ends_question {a : I.Answer q} : (question q).Ends t a ↔ t = [⟨q, a⟩] := by
  constructor
  · rintro ⟨b, t', rfl, rfl, rfl⟩
    rfl
  · rintro rfl
    exact ⟨a, [], rfl, rfl, rfl⟩

theorem asks_ask_cons {q' : I.Question} {a : I.Answer q'} {next : I.Answer q' → Dialogue I α} :
    (ask q' next).Asks (⟨q', a⟩ :: t) q ↔ (next a).Asks t q := by
  refine ⟨?_, fun h => .inr ⟨a, t, rfl, h⟩⟩
  rintro (⟨ht, -⟩ | ⟨_, _, ht, h⟩)
  · cases ht
  · cases ht
    exact h

theorem ends_ask_cons {a : I.Answer q} {next : I.Answer q → Dialogue I α} {b : α} :
    (ask q next).Ends (⟨q, a⟩ :: t) b ↔ (next a).Ends t b := by
  refine ⟨?_, fun h => ⟨a, t, rfl, h⟩⟩
  rintro ⟨_, _, ht, h⟩
  cases ht
  exact h

theorem asks_foldr_note {lines : List Log.Line} {d : Dialogue I α} :
    (lines.foldr .note d).Asks t q ↔ d.Asks t q := by
  induction lines with
  | nil => exact Iff.rfl
  | cons line lines ih => exact ih

/-- Log lines are no exchanges. -/
theorem ends_foldr_note {lines : List Log.Line} {d : Dialogue I α} {a : α} :
    (lines.foldr .note d).Ends t a ↔ d.Ends t a := by
  induction lines with
  | nil => exact Iff.rfl
  | cons line lines ih => exact ih

theorem ends_checked {x : Except Overflow α} {a : α} :
    (checked x : Dialogue I α).Ends t a ↔ t = [] ∧ x = .ok a := by
  cases x with
  | ok b =>
    constructor
    · rintro ⟨rfl, rfl⟩
      exact ⟨rfl, rfl⟩
    · rintro ⟨rfl, h⟩
      cases h
      exact ⟨rfl, rfl⟩
  | error o => exact ⟨False.elim, fun h => nomatch h.2⟩

/-! ## Where the first may fail -/

section

variable {x : ExceptT ε (Dialogue I) α} {f : α → ExceptT ε (Dialogue I) β}

theorem asks_run_bind :
    (x >>= f).run.Asks t q ↔
      x.run.Asks t q ∨
        ∃ t₁ t₂ a, t = t₁ ++ t₂ ∧ x.run.Ends t₁ (.ok a) ∧ (f a).run.Asks t₂ q := by
  rw [ExceptT.run_bind, bind_eq, asks_bind]
  refine or_congr Iff.rfl ⟨?_, ?_⟩
  · rintro ⟨t₁, t₂, r, rfl, hr, h⟩
    cases r with
    | ok a => exact ⟨t₁, t₂, a, rfl, hr, h⟩
    | error e => exact h.elim
  · rintro ⟨t₁, t₂, a, rfl, ha, h⟩
    exact ⟨t₁, t₂, .ok a, rfl, ha, h⟩

theorem ends_run_bind_ok {b : β} :
    (x >>= f).run.Ends t (.ok b) ↔
      ∃ t₁ t₂ a, t = t₁ ++ t₂ ∧ x.run.Ends t₁ (.ok a) ∧ (f a).run.Ends t₂ (.ok b) := by
  rw [ExceptT.run_bind, bind_eq, ends_bind]
  constructor
  · rintro ⟨t₁, t₂, r, rfl, hr, h⟩
    cases r with
    | ok a => exact ⟨t₁, t₂, a, rfl, hr, h⟩
    | error e => cases h.2
  · rintro ⟨t₁, t₂, a, rfl, ha, h⟩
    exact ⟨t₁, t₂, .ok a, rfl, ha, h⟩

theorem ends_run_bind_error {e : ε} :
    (x >>= f).run.Ends t (.error e) ↔
      x.run.Ends t (.error e) ∨
        ∃ t₁ t₂ a, t = t₁ ++ t₂ ∧ x.run.Ends t₁ (.ok a) ∧ (f a).run.Ends t₂ (.error e) := by
  rw [ExceptT.run_bind, bind_eq, ends_bind]
  constructor
  · rintro ⟨t₁, t₂, r, rfl, hr, h⟩
    cases r with
    | ok a => exact .inr ⟨t₁, t₂, a, rfl, hr, h⟩
    | error e' =>
      obtain ⟨rfl, he⟩ := h
      cases he
      exact .inl (by rwa [List.append_nil])
  · rintro (h | ⟨t₁, t₂, a, rfl, ha, h⟩)
    · exact ⟨t, [], .error e, (List.append_nil t).symm, h, rfl, rfl⟩
    · exact ⟨t₁, t₂, .ok a, rfl, ha, h⟩

theorem asks_run_lift {d : Dialogue I α} :
    (ExceptT.lift d : ExceptT ε (Dialogue I) α).run.Asks t q ↔ d.Asks t q := by
  refine asks_bind.trans ⟨?_, .inl⟩
  rintro (h | ⟨_, _, _, _, _, h⟩)
  · exact h
  · exact h.elim

theorem ends_run_lift {d : Dialogue I α} {r : Except ε α} :
    (ExceptT.lift d : ExceptT ε (Dialogue I) α).run.Ends t r ↔ ∃ a, d.Ends t a ∧ r = .ok a := by
  refine ends_bind.trans ⟨?_, ?_⟩
  · rintro ⟨t₁, t₂, a, rfl, ha, rfl, rfl⟩
    exact ⟨a, by rwa [List.append_nil], rfl⟩
  · rintro ⟨a, ha, rfl⟩
    exact ⟨t, [], a, (List.append_nil t).symm, ha, rfl, rfl⟩

end

/-! ## By means of another interface -/

section

variable {answer : (q : I.Question) → Dialogue J (I.Answer q)}
  {answer' : (q : J.Question) → Dialogue K (J.Answer q)}

theorem via_bind (d : Dialogue I α) (f : α → Dialogue I β) :
    (d.bind f).via answer = (d.via answer).bind fun a => (f a).via answer := by
  induction d with
  | done a => rfl
  | ask q next ih => simp only [bind, via, ih, bind_assoc]
  | note line next ih => simp only [bind, via, ih]
  | broken o => rfl

theorem via_via (d : Dialogue I α) :
    (d.via answer).via answer' = d.via fun q => (answer q).via answer' := by
  induction d with
  | done a => rfl
  | ask q next ih => simp only [via, via_bind, ih]
  | note line next ih => simp only [via, ih]
  | broken o => rfl

/-- Each exchange of the first transcript takes the next ones of the second. -/
inductive Relayed (answer : (q : I.Question) → Dialogue J (I.Answer q)) :
    Transcript I → Transcript J → Prop
  | nil : Relayed answer [] []
  | cons {q : I.Question} {a : I.Answer q} {s t' : Transcript J} {t : Transcript I}
    (h : (answer q).Ends s a) (ht : Relayed answer t t') :
    Relayed answer (⟨q, a⟩ :: t) (s ++ t')

theorem ends_via {d : Dialogue I α} {t' : Transcript J} {b : α} :
    (d.via answer).Ends t' b ↔ ∃ t, d.Ends t b ∧ Relayed answer t t' := by
  induction d generalizing t' with
  | done a =>
    constructor
    · rintro ⟨rfl, rfl⟩
      exact ⟨[], ⟨rfl, rfl⟩, .nil⟩
    · rintro ⟨t, ⟨rfl, rfl⟩, ⟨⟩⟩
      exact ⟨rfl, rfl⟩
  | ask q next ih =>
    refine ends_bind.trans ⟨?_, ?_⟩
    · rintro ⟨s, t', a, rfl, ha, h⟩
      obtain ⟨t, h, ht⟩ := (ih a).1 h
      exact ⟨⟨q, a⟩ :: t, ⟨a, t, rfl, h⟩, .cons ha ht⟩
    · rintro ⟨_, ⟨a, t, rfl, h⟩, ht⟩
      cases ht with
      | cons ha ht => exact ⟨_, _, a, rfl, ha, (ih a).2 ⟨t, h, ht⟩⟩
  | note line next ih => exact ih
  | broken o => exact ⟨False.elim, fun ⟨_, h, _⟩ => h⟩

theorem asks_via {d : Dialogue I α} {t' : Transcript J} {q' : J.Question} :
    (d.via answer).Asks t' q' ↔ ∃ t q t₀ s, t' = t₀ ++ s ∧ d.Asks t q ∧
      Relayed answer t t₀ ∧ (answer q).Asks s q' := by
  induction d generalizing t' with
  | done a => exact ⟨False.elim, fun ⟨_, _, _, _, _, h, _⟩ => h⟩
  | ask q next ih =>
    refine asks_bind.trans ⟨?_, ?_⟩
    · rintro (h | ⟨s, t', a, rfl, ha, h⟩)
      · exact ⟨[], q, [], t', rfl, .inl ⟨rfl, rfl⟩, .nil, h⟩
      · obtain ⟨t, q₁, t₀, s', rfl, h, ht, hs⟩ := (ih a).1 h
        exact ⟨⟨q, a⟩ :: t, q₁, s ++ t₀, s', (List.append_assoc ..).symm, .inr ⟨a, t, rfl, h⟩,
          .cons ha ht, hs⟩
    · rintro ⟨_, q₁, t₀, s, rfl, ⟨rfl, rfl⟩ | ⟨a, t, rfl, h⟩, ht, hs⟩
      · cases ht
        exact .inl hs
      · cases ht with
        | cons ha ht =>
          exact .inr ⟨_, _, a, List.append_assoc .., ha, (ih a).2 ⟨t, q₁, _, s, rfl, h, ht, hs⟩⟩
  | note line next ih => exact ih
  | broken o => exact ⟨False.elim, fun ⟨_, _, _, _, _, h, _⟩ => h⟩

end

/-! ## Lines -/

/-- After these exchanges the dialogue is done, with these lines written and this result. -/
def EndsSaying : Dialogue I α → Transcript I → List Log.Line → α → Prop
  | .done a, t, lines, b => t = [] ∧ lines = [] ∧ b = a
  | .ask q next, t, lines, b => ∃ a t', t = ⟨q, a⟩ :: t' ∧ (next a).EndsSaying t' lines b
  | .note line next, t, lines, b => ∃ rest, lines = line :: rest ∧ next.EndsSaying t rest b
  | .broken _, _, _, _ => False

theorem ends_iff_exists_endsSaying {d : Dialogue I α} {a : α} :
    d.Ends t a ↔ ∃ lines, d.EndsSaying t lines a := by
  induction d generalizing t with
  | done b =>
    constructor
    · exact fun h => ⟨[], h.1, rfl, h.2⟩
    · exact fun ⟨_, ht, _, ha⟩ => ⟨ht, ha⟩
  | ask q next ih =>
    constructor
    · rintro ⟨b, t', rfl, h⟩
      obtain ⟨lines, h⟩ := (ih b).1 h
      exact ⟨lines, b, t', rfl, h⟩
    · rintro ⟨lines, b, t', rfl, h⟩
      exact ⟨b, t', rfl, (ih b).2 ⟨lines, h⟩⟩
  | note line next ih =>
    refine ih.trans ⟨?_, ?_⟩
    · exact fun ⟨rest, h⟩ => ⟨line :: rest, rest, rfl, h⟩
    · exact fun ⟨_, rest, _, h⟩ => ⟨rest, h⟩
  | broken o => exact ⟨False.elim, fun ⟨_, h⟩ => h⟩

theorem endsSaying_bind {d : Dialogue I α} {f : α → Dialogue I β} {lines : List Log.Line} {b : β}
    (h : (d.bind f).EndsSaying t lines b) :
    ∃ t₁ t₂ lines₁ lines₂ a, t = t₁ ++ t₂ ∧ lines = lines₁ ++ lines₂ ∧
      d.EndsSaying t₁ lines₁ a ∧ (f a).EndsSaying t₂ lines₂ b := by
  induction d generalizing t lines with
  | done a => exact ⟨[], t, [], lines, a, rfl, rfl, ⟨rfl, rfl, rfl⟩, h⟩
  | ask q next ih =>
    obtain ⟨c, t', rfl, h⟩ := h
    obtain ⟨t₁, t₂, lines₁, lines₂, a, rfl, rfl, ha, h⟩ := ih c h
    exact ⟨⟨q, c⟩ :: t₁, t₂, lines₁, lines₂, a, rfl, rfl, ⟨c, t₁, rfl, ha⟩, h⟩
  | note line next ih =>
    obtain ⟨rest, rfl, h⟩ := h
    obtain ⟨t₁, t₂, lines₁, lines₂, a, rfl, rfl, ha, h⟩ := ih h
    exact ⟨t₁, t₂, line :: lines₁, lines₂, a, rfl, rfl, ⟨lines₁, rfl, ha⟩, h⟩
  | broken o => exact h.elim

theorem endsSaying_run_bind_ok {x : ExceptT ε (Dialogue I) α} {f : α → ExceptT ε (Dialogue I) β}
    {lines : List Log.Line} {b : β} (h : (x >>= f).run.EndsSaying t lines (.ok b)) :
    ∃ t₁ t₂ lines₁ lines₂ a, t = t₁ ++ t₂ ∧ lines = lines₁ ++ lines₂ ∧
      x.run.EndsSaying t₁ lines₁ (.ok a) ∧ (f a).run.EndsSaying t₂ lines₂ (.ok b) := by
  rw [ExceptT.run_bind, bind_eq] at h
  obtain ⟨t₁, t₂, lines₁, lines₂, r, rfl, rfl, hr, h⟩ := endsSaying_bind h
  cases r with
  | ok a => exact ⟨t₁, t₂, lines₁, lines₂, a, rfl, rfl, hr, h⟩
  | error e => cases h.2.2

theorem eq_append_of_endsSaying_foldr_note {first lines : List Log.Line} {d : Dialogue I α} {a : α}
    (h : (first.foldr .note d).EndsSaying t lines a) :
    ∃ rest, lines = first ++ rest ∧ d.EndsSaying t rest a := by
  induction first generalizing lines with
  | nil => exact ⟨lines, rfl, h⟩
  | cons line first ih =>
    obtain ⟨lines, rfl, h⟩ := h
    obtain ⟨rest, rfl, hrest⟩ := ih h
    exact ⟨rest, rfl, hrest⟩

/-- The exchanges decide how a dialogue ends. -/
theorem eq_of_ends {d : Dialogue I α} {a b : α} (h : d.Ends t a) (h' : d.Ends t b) : a = b := by
  induction d generalizing t with
  | done c => exact h.2.trans h'.2.symm
  | ask q next ih =>
    obtain ⟨c, t', rfl, h⟩ := h
    obtain ⟨c', t'', ht, h'⟩ := h'
    cases ht
    exact ih c h h'
  | note line next ih => exact ih h h'
  | broken o => exact h.elim

/-- A dialogue has asked every question of its exchanges. -/
theorem asks_of_ends {d : Dialogue I α} {a : α} {e : Exchange I} {t' : Transcript I}
    (h : d.Ends (t ++ e :: t') a) : d.Asks t e.question := by
  induction d generalizing t with
  | done b => simp [Ends] at h
  | ask q next ih =>
    obtain ⟨b, t'', ht, h⟩ := h
    cases t with
    | nil =>
      cases ht
      exact .inl ⟨rfl, rfl⟩
    | cons e' t =>
      cases ht
      exact .inr ⟨b, t, rfl, ih b h⟩
  | note line next ih => exact ih h
  | broken o => exact h.elim

/-- A dialogue that is done asks nothing more. -/
theorem not_asks_of_ends {d : Dialogue I α} {a : α} {t' : Transcript I} (h : d.Ends t a) :
    ¬d.Asks (t ++ t') q := by
  induction d generalizing t with
  | done b => exact id
  | ask q' next ih =>
    obtain ⟨b, t', rfl, h⟩ := h
    rintro (⟨h', -⟩ | ⟨c, t'', h', hasks⟩)
    · cases h'
    · cases h'
      exact ih b h hasks
  | note line next ih => exact ih h
  | broken o => exact id

end

end SparkLedger.Dialogue
