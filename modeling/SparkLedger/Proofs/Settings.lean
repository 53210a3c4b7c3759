import SparkLedger.Proofs.Text.Numeral
import SparkLedger.Settings

/-!
# What the environment says

The settings are those that the environment describes, however it writes them, and an environment
that describes none is refused for the first of its variables that cannot be read.

* `Describes`: the environment sets each variable to the setting, in one of the ways to write it, or
  leaves it open and the setting is the standard one.
* `Readable`, `FirstFault`: the variables that can be read, and the error of the first that cannot.
* `Reads`: what comes of reading some variables in turn; `reads_load` follows `load` with it.
* `load_eq_ok_iff`, `load_eq_error_iff`: which settings are loaded, and which error is given.
-/

namespace SparkLedger.Settings

/-! ## Ways to write a setting -/

/-- A text means a value if it is one of the ways to write it, with blanks around it or without. -/
def Means {α : Type} (written : α → List Char → Prop) (s : String) (a : α) : Prop :=
  ∃ core, written a core ∧ Text.Padded core s.toList

/-- A text means a number of a range: it has its decimal digits. -/
def MeansNumber {hi : Int} : String → Ranged 0 hi → Prop :=
  Means fun n => Text.Numeral n.val.toNat

/-- The way to write a truth value. -/
def Truth (b : Bool) (cs : List Char) : Prop := cs = (if b then "true" else "false").toList

/-- A text means a truth value. -/
def MeansTruth : String → Bool → Prop := Means Truth

/-- A text means the namespace that it is; the empty text means none. -/
def MeansNamespace (s : String) (ns : Option String) : Prop :=
  ns = if s = "" then none else some s

theorem number?_eq_some_iff {hi : Int} {cs : List Char} {n : Ranged 0 hi} :
    number? cs = some n ↔ Text.Numeral n.val.toNat cs := by
  have hlo := n.lo_le
  rw [← Text.natural?_eq_some_iff]
  constructor
  · intro h
    obtain ⟨m, hm, hn⟩ := Option.bind_eq_some_iff.1 h
    have hval : n.val = m := Ranged.ofInt?_eq_some_iff.1 hn
    rw [hm, hval, Int.toNat_natCast]
  · intro h
    refine Option.bind_eq_some_iff.2 ⟨_, h, Ranged.ofInt?_eq_some_iff.2 ?_⟩
    exact (Int.toNat_of_nonneg hlo).symm

theorem truth?_eq_some_iff {cs : List Char} {b : Bool} : truth? cs = some b ↔ Truth b cs := by
  unfold truth? Truth
  split
  · rename_i h
    subst h
    cases b <;> decide
  · rename_i htrue
    split
    · rename_i h
      subst h
      cases b <;> decide
    · rename_i hfalse
      cases b <;> simp_all

/-- Blanks around a value do not count, where none of the ways to write it has any. -/
theorem parse_trim_eq_some_iff {α : Type} {parse : List Char → Option α}
    {written : α → List Char → Prop} (hparse : ∀ cs a, parse cs = some a ↔ written a cs)
    (hblank : ∀ a cs, written a cs → ∀ c ∈ cs, Text.isBlank c = false) {s : String} {a : α} :
    parse (Text.trim s.toList) = some a ↔ Means written s a := by
  constructor
  · intro h
    exact ⟨_, (hparse _ _).1 h, Text.padded_trim _⟩
  · rintro ⟨core, hcore, hpadded⟩
    rw [Text.trim_eq_of_padded hpadded (hblank a core hcore)]
    exact (hparse _ _).2 hcore

theorem number?_trim_eq_some_iff {hi : Int} {s : String} {n : Ranged 0 hi} :
    number? (Text.trim s.toList) = some n ↔ MeansNumber s n :=
  parse_trim_eq_some_iff (fun _ _ => number?_eq_some_iff) fun _ _ h => h.isBlank_eq_false

theorem truth?_trim_eq_some_iff {s : String} {b : Bool} :
    truth? (Text.trim s.toList) = some b ↔ MeansTruth s b := by
  refine parse_trim_eq_some_iff (fun cs b => @truth?_eq_some_iff cs b) ?_
  rintro a _ rfl
  cases a <;> simp [Text.isBlank]

/-! ## Environments that describe settings -/

/-- A variable gives a setting, by what its text means, or by default where it is not set. -/
def Gives {α : Type} (means : String → α → Prop) (default : α) : Value → α → Prop
  | .absent, a => a = default
  | .text s, a => means s a
  | .bytes _, _ => False

theorem Gives.unique {α : Type} {means : String → α → Prop} {default a b : α} {value : Value}
    (hmeans : ∀ s a b, means s a → means s b → a = b) (ha : Gives means default value a)
    (hb : Gives means default value b) : a = b := by
  cases value with
  | absent => exact ha.trans hb.symm
  | text s => exact hmeans s a b ha hb
  | bytes _ => exact ha.elim

/-- The environment gives all of these settings. -/
structure Describes (lookup : Lookup) (c : Settings) : Prop where
  ns : Gives MeansNamespace none (lookup "SPARK_TRACKER_NAMESPACE") c.ns
  apiTimeout :
    Gives MeansNumber standard.apiTimeout (lookup "SPARK_TRACKER_API_TIMEOUT_SECS") c.apiTimeout
  runningRequeue :
    Gives MeansNumber standard.runningRequeue (lookup "SPARK_TRACKER_RUNNING_REQUEUE_SECS")
      c.runningRequeue
  driverPort :
    Gives MeansNumber standard.driverPort (lookup "SPARK_TRACKER_DRIVER_UI_PORT") c.driverPort
  historyPort :
    Gives MeansNumber standard.historyPort (lookup "SPARK_TRACKER_HISTORY_SERVER_PORT")
      c.historyPort
  historySelector :
    Gives Eq standard.historySelector (lookup "SPARK_TRACKER_HISTORY_SERVER_SELECTOR")
      c.historySelector
  directHttp :
    Gives MeansTruth standard.directHttp (lookup "SPARK_TRACKER_DIRECT_HTTP") c.directHttp

theorem Describes.unique {lookup : Lookup} {c d : Settings} (hc : Describes lookup c)
    (hd : Describes lookup d) : c = d := by
  have hnumber {hi : Int} : ∀ (s : String) (m n : Ranged 0 hi),
      MeansNumber s m → MeansNumber s n → m = n := by
    intro s m n hm hn
    rw [← number?_trim_eq_some_iff] at hm hn
    exact Option.some.inj (hm.symm.trans hn)
  have htruth : ∀ s a b, MeansTruth s a → MeansTruth s b → a = b := by
    intro s a b ha hb
    rw [← truth?_trim_eq_some_iff] at ha hb
    exact Option.some.inj (ha.symm.trans hb)
  have hns := hc.ns.unique (fun _ _ _ ha hb => ha.trans hb.symm) hd.ns
  have hapiTimeout := hc.apiTimeout.unique hnumber hd.apiTimeout
  have hrunningRequeue := hc.runningRequeue.unique hnumber hd.runningRequeue
  have hdriverPort := hc.driverPort.unique hnumber hd.driverPort
  have hhistoryPort := hc.historyPort.unique hnumber hd.historyPort
  have hselector := hc.historySelector.unique (fun _ _ _ ha hb => ha.symm.trans hb)
    hd.historySelector
  have hdirectHttp := hc.directHttp.unique htruth hd.directHttp
  cases c
  cases d
  simp only [mk.injEq]
  exact ⟨hns, hapiTimeout, hrunningRequeue, hdriverPort, hhistoryPort, hselector, hdirectHttp⟩

/-! ## Variables that cannot be read -/

/-- What a variable is read as. -/
inductive Kind where
  /-- A text as it stands. -/
  | text
  /-- A whole number up to a bound. -/
  | number (hi : Int)
  | truth

/-- The texts that can be read. -/
def Kind.Accepts : Kind → String → Prop
  | .text, _ => True
  | .number hi, s => ∃ n : Ranged 0 hi, MeansNumber s n
  | .truth, s => ∃ b, MeansTruth s b

/-- The variables, in the order in which they are looked at. -/
def declared : List (String × Kind) := [
  ("SPARK_TRACKER_NAMESPACE", .text),
  ("SPARK_TRACKER_API_TIMEOUT_SECS", .number 18446744073709551615),
  ("SPARK_TRACKER_RUNNING_REQUEUE_SECS", .number 18446744073709551615),
  ("SPARK_TRACKER_DRIVER_UI_PORT", .number 65535),
  ("SPARK_TRACKER_HISTORY_SERVER_PORT", .number 65535),
  ("SPARK_TRACKER_HISTORY_SERVER_SELECTOR", .text),
  ("SPARK_TRACKER_DIRECT_HTTP", .truth)]

/-- A variable is not set, or its value is a text that can be read. -/
def Readable (lookup : Lookup) (v : String × Kind) : Prop :=
  match lookup v.1 with
  | .absent => True
  | .text s => v.2.Accepts s
  | .bytes _ => False

/-- The error of a variable that cannot be read: it shows bytes that are no text, and names the
variable of a text that means nothing. -/
def fault (lookup : Lookup) (v : String × Kind) : Error :=
  match lookup v.1 with
  | .bytes b => .notText b
  | _ => .invalid v.1

/-- The error is that of the first variable that cannot be read. -/
def FirstFault (lookup : Lookup) (vs : List (String × Kind)) (e : Error) : Prop :=
  ∃ before v after, vs = before ++ v :: after ∧ (∀ u ∈ before, Readable lookup u) ∧
    ¬Readable lookup v ∧ fault lookup v = e

section FirstFault

variable {lookup : Lookup} {v : String × Kind} {vs : List (String × Kind)} {e e' : Error}

theorem firstFault_cons_iff :
    FirstFault lookup (v :: vs) e ↔
      ¬Readable lookup v ∧ fault lookup v = e ∨ Readable lookup v ∧ FirstFault lookup vs e := by
  constructor
  · rintro ⟨before, u, after, hvs, hbefore, hu, he⟩
    cases before with
    | nil =>
      cases hvs
      exact .inl ⟨hu, he⟩
    | cons w before =>
      cases hvs
      obtain ⟨hv, hbefore⟩ := List.forall_mem_cons.1 hbefore
      exact .inr ⟨hv, before, u, after, rfl, hbefore, hu, he⟩
  · rintro (⟨hv, he⟩ | ⟨hv, before, u, after, rfl, hbefore, hu, he⟩)
    · exact ⟨[], v, vs, rfl, by simp, hv, he⟩
    · exact ⟨v :: before, u, after, rfl, List.forall_mem_cons.2 ⟨hv, hbefore⟩, hu, he⟩

theorem FirstFault.unique (h : FirstFault lookup vs e) (h' : FirstFault lookup vs e') : e = e' := by
  induction vs with
  | nil =>
    obtain ⟨before, v, after, hvs, -⟩ := h
    simp at hvs
  | cons v vs ih =>
    rcases firstFault_cons_iff.1 h with ⟨hv, he⟩ | ⟨hv, h⟩ <;>
      rcases firstFault_cons_iff.1 h' with ⟨hv', he'⟩ | ⟨hv', h'⟩
    · exact he.symm.trans he'
    · exact absurd hv' hv
    · exact absurd hv hv'
    · exact ih h h'

theorem FirstFault.not_readable (h : FirstFault lookup vs e) : ¬∀ v ∈ vs, Readable lookup v := by
  obtain ⟨before, v, after, rfl, -, hv, -⟩ := h
  exact fun hall => hv (hall v (by simp))

end FirstFault

/-! ## Reading in turn -/

/-- What comes of reading some variables in turn: something of which `Q` holds if all of them can
be read, otherwise the error of the first that cannot. -/
def Reads {α : Type} (lookup : Lookup) (vs : List (String × Kind)) (x : Except Error α)
    (Q : α → Prop) : Prop :=
  match x with
  | .ok a => (∀ v ∈ vs, Readable lookup v) ∧ Q a
  | .error e => FirstFault lookup vs e

section Reads

variable {α β : Type} {lookup : Lookup} {v : String × Kind} {vs : List (String × Kind)}

theorem reads_pure {a : α} {Q : α → Prop} (h : Q a) : Reads lookup [] (pure a) Q :=
  ⟨by simp, h⟩

theorem Reads.of_ok {x : Except Error α} {Q : α → Prop} {a : α} (h : Reads lookup vs x Q)
    (hx : x = .ok a) : (∀ v ∈ vs, Readable lookup v) ∧ Q a := by
  subst hx
  exact h

theorem Reads.of_error {x : Except Error α} {Q : α → Prop} {e : Error} (h : Reads lookup vs x Q)
    (hx : x = .error e) : FirstFault lookup vs e := by
  subst hx
  exact h

theorem Reads.exists_ok {x : Except Error α} {Q : α → Prop} (h : Reads lookup vs x Q)
    (hall : ∀ v ∈ vs, Readable lookup v) : ∃ a, x = .ok a := by
  cases hx : x with
  | ok a => exact ⟨a, rfl⟩
  | error e => exact absurd hall (h.of_error hx).not_readable

/-- One variable, and then the others. -/
theorem Reads.bind {x : Except Error α} {f : α → Except Error β} {P : α → Prop} {Q : β → Prop}
    (hx : Reads lookup [v] x P) (hf : ∀ a, P a → Reads lookup vs (f a) Q) :
    Reads lookup (v :: vs) (x >>= f) Q := by
  cases x with
  | error e =>
    rcases firstFault_cons_iff.1 hx with hv | ⟨-, _, _, _, hnil, -⟩
    · exact firstFault_cons_iff.2 (.inl hv)
    · simp at hnil
  | ok a =>
    obtain ⟨hv, ha⟩ := hx.of_ok rfl
    have hv : Readable lookup v := hv v List.mem_cons_self
    show Reads lookup (v :: vs) (f a) Q
    cases hrest : f a with
    | error e => exact firstFault_cons_iff.2 (.inr ⟨hv, (hf a ha).of_error hrest⟩)
    | ok b =>
      obtain ⟨hvs, hb⟩ := (hf a ha).of_ok hrest
      exact ⟨List.forall_mem_cons.2 ⟨hv, hvs⟩, hb⟩

theorem reads_of_readable {x : Except Error α} {Q : α → Prop} {a : α} (hv : Readable lookup v)
    (hx : x = .ok a) (ha : Q a) : Reads lookup [v] x Q := by
  subst hx
  exact ⟨List.forall_mem_singleton.2 hv, ha⟩

theorem reads_of_not_readable {x : Except Error α} {Q : α → Prop} (hv : ¬Readable lookup v)
    (hx : x = .error (fault lookup v)) : Reads lookup [v] x Q := by
  subst hx
  exact firstFault_cons_iff.2 (.inl ⟨hv, rfl⟩)

theorem reads_text (variable_ : String) :
    Reads lookup [(variable_, .text)] (text? lookup variable_)
      (fun o => lookup variable_ = o.elim .absent .text) := by
  unfold text?
  cases h : lookup variable_ with
  | absent => exact reads_of_readable (by simp [Readable, h]) rfl rfl
  | text s => exact reads_of_readable (by simp [Readable, h, Kind.Accepts]) rfl rfl
  | bytes b => exact reads_of_not_readable (by simp [Readable, h]) (by simp [fault, h])

theorem parsed?_of_text (parse : List Char → Option α) {variable_ s : String}
    (h : lookup variable_ = .text s) :
    parsed? parse lookup variable_ =
      (parse (Text.trim s.toList)).elim (.error (.invalid variable_)) (fun a => .ok (some a)) := by
  unfold parsed? text?
  rw [h]
  simp only [bind, Except.bind]
  cases parse (Text.trim s.toList) <;> rfl

/-- A value that is read from the texts that mean it. -/
theorem reads_parsed {parse : List Char → Option α} {means : String → α → Prop} {kind : Kind}
    (variable_ : String) (hparse : ∀ s a, parse (Text.trim s.toList) = some a ↔ means s a)
    (hkind : ∀ s, kind.Accepts s ↔ ∃ a, means s a) :
    Reads lookup [(variable_, kind)] (parsed? parse lookup variable_)
      (fun o => ∀ default, Gives means default (lookup variable_) (o.getD default)) := by
  cases h : lookup variable_ with
  | absent =>
    have hx : parsed? parse lookup variable_ = .ok none := by
      unfold parsed? text?
      rw [h]
      rfl
    exact reads_of_readable (by simp [Readable, h]) hx fun _ => rfl
  | bytes b =>
    have hx : parsed? parse lookup variable_ = .error (.notText b) := by
      unfold parsed? text?
      rw [h]
      rfl
    exact reads_of_not_readable (by simp [Readable, h]) (by simpa [fault, h] using hx)
  | text s =>
    have hx := parsed?_of_text parse h
    cases ha : parse (Text.trim s.toList) with
    | some a =>
      have hmeans := (hparse s a).1 ha
      have haccepts := (hkind s).2 ⟨a, hmeans⟩
      rw [ha] at hx
      exact reads_of_readable (by simpa [Readable, h] using haccepts) hx fun _ => hmeans
    | none =>
      have hrefused : ¬kind.Accepts s := by
        rw [hkind]
        rintro ⟨a, hmeans⟩
        rw [(hparse s a).2 hmeans] at ha
        cases ha
      rw [ha] at hx
      exact reads_of_not_readable (by simpa [Readable, h] using hrefused)
        (by simpa [fault, h] using hx)

theorem reads_number {hi : Int} (variable_ : String) :
    Reads lookup [(variable_, .number hi)] (parsed? number? lookup variable_)
      (fun o : Option (Ranged 0 hi) =>
        ∀ default, Gives MeansNumber default (lookup variable_) (o.getD default)) :=
  reads_parsed variable_ (fun _ _ => number?_trim_eq_some_iff) fun _ => Iff.rfl

theorem reads_truth (variable_ : String) :
    Reads lookup [(variable_, .truth)] (parsed? truth? lookup variable_)
      (fun o => ∀ default, Gives MeansTruth default (lookup variable_) (o.getD default)) :=
  reads_parsed variable_ (fun _ _ => truth?_trim_eq_some_iff) fun _ => Iff.rfl

end Reads

/-- The settings are read variable by variable, and come out as the environment describes them. -/
theorem reads_load (lookup : Lookup) :
    Reads lookup declared (load lookup) (Describes lookup) := by
  unfold load declared
  refine (reads_text _).bind fun ns hns => ?_
  refine (reads_number _).bind fun apiTimeout hapiTimeout => ?_
  refine (reads_number _).bind fun runningRequeue hrunningRequeue => ?_
  refine (reads_number _).bind fun driverPort hdriverPort => ?_
  refine (reads_number _).bind fun historyPort hhistoryPort => ?_
  refine (reads_text _).bind fun historySelector hselector => ?_
  refine (reads_truth _).bind fun directHttp hdirectHttp => ?_
  refine reads_pure ⟨?_, hapiTimeout _, hrunningRequeue _, hdriverPort _, hhistoryPort _, ?_,
    hdirectHttp _⟩
  · rw [hns]
    cases ns with
    | none => rfl
    | some s => by_cases hs : s = "" <;> simp [Gives, MeansNamespace, Option.filter, hs]
  · rw [hselector]
    cases historySelector <;> rfl

/-! ## Which settings are loaded, and which error is given -/

theorem Gives.readable {α : Type} {means : String → α → Prop} {default a : α} {kind : Kind}
    {lookup : Lookup} {variable_ : String} (h : Gives means default (lookup variable_) a)
    (hkind : ∀ s a, means s a → kind.Accepts s) : Readable lookup (variable_, kind) := by
  unfold Readable
  cases hvalue : lookup variable_ with
  | absent => trivial
  | text s =>
    rw [hvalue] at h
    exact hkind s a h
  | bytes b =>
    rw [hvalue] at h
    exact h

theorem Describes.readable {lookup : Lookup} {c : Settings} (h : Describes lookup c) :
    ∀ v ∈ declared, Readable lookup v := by
  simp only [declared, List.forall_mem_cons]
  exact ⟨h.ns.readable fun _ _ _ => trivial, h.apiTimeout.readable fun _ n hn => ⟨n, hn⟩,
    h.runningRequeue.readable fun _ n hn => ⟨n, hn⟩, h.driverPort.readable fun _ n hn => ⟨n, hn⟩,
    h.historyPort.readable fun _ n hn => ⟨n, hn⟩, h.historySelector.readable fun _ _ _ => trivial,
    h.directHttp.readable fun _ b hb => ⟨b, hb⟩, by simp⟩

theorem load_eq_ok_iff {lookup : Lookup} {c : Settings} :
    load lookup = .ok c ↔ Describes lookup c := by
  refine ⟨fun h => ((reads_load lookup).of_ok h).2, fun hc => ?_⟩
  obtain ⟨d, hd⟩ := (reads_load lookup).exists_ok hc.readable
  rw [hd, ((reads_load lookup).of_ok hd).2.unique hc]

theorem load_eq_error_iff {lookup : Lookup} {e : Error} :
    load lookup = .error e ↔ FirstFault lookup declared e := by
  refine ⟨(reads_load lookup).of_error, fun he => ?_⟩
  cases h : load lookup with
  | ok c => exact absurd ((reads_load lookup).of_ok h).1 he.not_readable
  | error e' => rw [((reads_load lookup).of_error h).unique he]

/-- The settings that are loaded are those that the environment describes: numbers in decimal
digits, with any zeros or a plus sign in front of them, truth values by their names, either with any
blanks around them, the selector as it stands, and the namespace as it stands, or not set or empty
for none. Settings are loaded if and only if every variable is not set or a text, and those of
numbers and truth values, where they are set, mean one of their range; otherwise the error is that
of the first variable of which this does not hold. -/
theorem as_written_or_first_fault (lookup : Lookup) :
    (∀ c, load lookup = .ok c ↔ Describes lookup c) ∧
      ((∃ c, load lookup = .ok c) ↔ ∀ v ∈ declared, Readable lookup v) ∧
      ∀ e, load lookup = .error e ↔ FirstFault lookup declared e := by
  refine ⟨fun _ => load_eq_ok_iff, ⟨?_, (reads_load lookup).exists_ok⟩, fun _ => load_eq_error_iff⟩
  rintro ⟨c, hc⟩
  exact ((reads_load lookup).of_ok hc).1

/-- An environment that writes two settings in unusual ways, and says of the namespace that there
is none. -/
def unusual : Lookup
  | "SPARK_TRACKER_NAMESPACE" => .text ""
  | "SPARK_TRACKER_API_TIMEOUT_SECS" => .text "\u00a0+007\n"
  | "SPARK_TRACKER_DIRECT_HTTP" => .text "\ttrue "
  | _ => .absent

/-- An environment with two variables that cannot be read, one behind the other. -/
def faulty : Lookup
  | "SPARK_TRACKER_API_TIMEOUT_SECS" => .text "65536"
  | "SPARK_TRACKER_DRIVER_UI_PORT" => .text "65536"
  | "SPARK_TRACKER_DIRECT_HTTP" => .bytes ⟨#[0xff]⟩
  | _ => .absent

theorem as_written_or_first_fault_unusual :
    load unusual =
        .ok { standard with apiTimeout := ⟨7, by decide, by decide⟩, directHttp := true } ∧
      load faulty = .error (.invalid "SPARK_TRACKER_DRIVER_UI_PORT") := by
  have hnumber : Text.Padded "+007".toList "\u00a0+007\n".toList :=
    ⟨['\u00a0'], ['\n'], by simp [Text.isBlank], by simp [Text.isBlank], by decide⟩
  have htruth : Text.Padded "true".toList "\ttrue ".toList :=
    ⟨['\t'], [' '], by simp [Text.isBlank], by simp [Text.isBlank], by decide⟩
  have hlarge : ¬(Kind.number 65535).Accepts "65536" := by
    rintro ⟨n, hn⟩
    have hnone : (number? (Text.trim "65536".toList) : Option Port) = none := by decide
    rw [← number?_trim_eq_some_iff, hnone] at hn
    cases hn
  constructor
  · refine ((as_written_or_first_fault unusual).1 _).2 ⟨rfl, ?_, rfl, rfl, rfl, rfl, ?_⟩
    · exact ⟨_, ⟨['+'], 2, .inr rfl, by decide⟩, hnumber⟩
    · exact ⟨_, rfl, htruth⟩
  · refine ((as_written_or_first_fault faulty).2.2 _).2
      ⟨declared.take 3, _, declared.drop 4, rfl, ?_, hlarge, rfl⟩
    have hread : (Kind.number 18446744073709551615).Accepts "65536" :=
      ⟨⟨65536, by decide, by decide⟩, _, ⟨[], 0, .inl rfl, rfl⟩,
        [], [], by simp, by simp, by decide⟩
    simp only [declared, List.take_succ_cons, List.take_zero, List.forall_mem_cons]
    exact ⟨trivial, hread, trivial, by simp⟩

end SparkLedger.Settings
