import SparkLedger.Ranged
import SparkLedger.Log

/-!
# Dialogues

A `Dialogue I α` is a computation of an `α` that asks its environment questions of the interface
`I`, writes log lines on the way, and may break off because a number left its range. It is data:
the same dialogue can be held with a scripted environment, with an adversary, or step by step
beside other dialogues over one shared state.

* `bind_assoc`, `bind_done`: dialogues compose.
* `Dialogue.via`: holds a dialogue of one interface by means of another.
* `Dialogue.hold`: holds a dialogue with an environment that has a state.
-/

namespace SparkLedger

/-- What can be asked, and the answers to each question. -/
structure Interface where
  Question : Type
  Answer : Question → Type

/-- A computation that asks questions, writes log lines and may break off. -/
inductive Dialogue (I : Interface) (α : Type) where
  | done (a : α)
  | ask (q : I.Question) (next : I.Answer q → Dialogue I α)
  | note (line : Log.Line) (next : Dialogue I α)
  | broken (o : Overflow)

namespace Dialogue

variable {I J : Interface} {α β γ : Type}

/-- One dialogue after the other. -/
def bind : Dialogue I α → (α → Dialogue I β) → Dialogue I β
  | .done a, f => f a
  | .ask q next, f => .ask q fun a => (next a).bind f
  | .note line next, f => .note line (next.bind f)
  | .broken o, _ => .broken o

instance : Monad (Dialogue I) where
  pure := .done
  bind := bind

@[simp] theorem pure_eq_done (a : α) : (pure a : Dialogue I α) = .done a := rfl

@[simp] theorem bind_eq (d : Dialogue I α) (f : α → Dialogue I β) : d >>= f = d.bind f := rfl

@[simp] theorem bind_done (d : Dialogue I α) : d.bind .done = d := by
  induction d with
  | done a => rfl
  | ask q next ih => simp [bind, ih]
  | note line next ih => simp [bind, ih]
  | broken o => rfl

theorem bind_assoc (d : Dialogue I α) (f : α → Dialogue I β) (g : β → Dialogue I γ) :
    (d.bind f).bind g = d.bind fun a => (f a).bind g := by
  induction d with
  | done a => rfl
  | ask q next ih => simp [bind, ih]
  | note line next ih => simp [bind, ih]
  | broken o => rfl

instance : LawfulMonad (Dialogue I) := LawfulMonad.mk' (Dialogue I)
  (fun d => by change d.bind (fun a => .done (id a)) = d; simp)
  (fun _ _ => rfl)
  (fun d f g => bind_assoc d f g)

/-- Asks a question. -/
def question (q : I.Question) : Dialogue I (I.Answer q) := .ask q .done

/-- Writes a log line. -/
def log (level : Log.Level) (text : String) : Dialogue I Unit := .note ⟨level, text⟩ (.done ())

/-- Goes on with the result of a checked computation, or breaks off. -/
def checked : Except Overflow α → Dialogue I α
  | .ok a => .done a
  | .error o => .broken o

/-- Holds a dialogue of one interface by means of another. -/
def via (answer : (q : I.Question) → Dialogue J (I.Answer q)) : Dialogue I α → Dialogue J α
  | .done a => .done a
  | .ask q next => (answer q).bind fun a => (next a).via answer
  | .note line next => .note line (next.via answer)
  | .broken o => .broken o

/-- How a dialogue ends. -/
inductive Ending (α : Type) where
  | done (a : α)
  /-- A question was never answered. -/
  | stalled
  | broken (o : Overflow)

/-- An environment with a state: it answers, or never does, and it keeps the log. -/
structure Environment (I : Interface) (σ : Type) where
  answer : (q : I.Question) → σ → Option (I.Answer q) × σ
  note : Log.Line → σ → σ

/-- Holds a dialogue with an environment. -/
def hold {σ : Type} (env : Environment I σ) : Dialogue I α → σ → Ending α × σ
  | .done a, s => (.done a, s)
  | .ask q next, s =>
    match env.answer q s with
    | (some a, s) => (next a).hold env s
    | (none, s) => (.stalled, s)
  | .note line next, s => next.hold env (env.note line s)
  | .broken o, s => (.broken o, s)

end Dialogue

end SparkLedger
