import Mathlib.Data.List.Induction
import SparkLedger.Proofs.Info.Fetch
import SparkLedger.Tracker.Agent

/-!
# One source for each fetch

A fetch follows the route that its clients give: the driver takes over once, from a history server
that cannot describe the application, and nobody else reports after that. Every call is one
request for a body, which decides how the call is answered.

* `asks_fetchBodies`, `ends_fetchBodies`: a fetch in requests for bodies.
* `find?_flattened`: of the values of one property the last one counts.
* `route`: the calls of a fetch, by who is there and whether the first of them has answered.
* `answers_of_one_source`: a fetch follows its route, stops at the first failure that leaves
  nobody, and takes all it reports from one client.
-/

namespace SparkLedger

open Dialogue (Transcript Exchange Relayed)

namespace Rest

/-! ## One request for each call -/

/-- How the body of a path answers a call. -/
def Call.reading (c : Call) (path : String) :
    Except TransportError ByteArray → Except Error c.Report
  | .error e => .error (.transport e)
  | .ok bytes =>
    match Json.ofBytes? bytes >>= c.read? with
    | some report => .ok report
    | none => .error (.undecodable path)

/-- The request of a call. -/
def request (applicationId : String) (q : Client × Call) : Endpoint × String :=
  (q.1.endpoint, q.2.path applicationId)

namespace Client

variable {client : Client} {c : Call} {applicationId : String} {t : Transcript Fetching}

/-- A call asks once, and takes the body as its answer. -/
theorem call_eq (client : Client) (applicationId : String) (c : Call) :
    ∃ line, client.call applicationId c = .note line (.ask (request applicationId (client, c))
      fun body => .done (c.reading (c.path applicationId) body)) := by
  refine ⟨_, congrArg (Dialogue.note _) (congrArg (Dialogue.ask (I := Fetching) _)
    (funext fun body => ?_))⟩
  change Except TransportError ByteArray at body
  cases body with
  | error e => rfl
  | ok bytes =>
    dsimp only [Dialogue.bind, Call.reading]
    cases Json.ofBytes? bytes >>= c.read? <;> rfl

theorem asks_call {q : Endpoint × String} :
    (client.call applicationId c).Asks t q ↔ t = [] ∧ q = request applicationId (client, c) := by
  obtain ⟨line, h⟩ := client.call_eq applicationId c
  rw [h]
  constructor
  · rintro (h | ⟨_, _, _, h⟩)
    · exact h
    · exact h.elim
  · exact .inl

theorem ends_call {a : Except Error c.Report} :
    (client.call applicationId c).Ends t a ↔ ∃ body : Except TransportError ByteArray,
      t = [⟨request applicationId (client, c), body⟩] ∧
        a = c.reading (c.path applicationId) body := by
  obtain ⟨line, h⟩ := client.call_eq applicationId c
  rw [h]
  constructor
  · rintro ⟨body, _, rfl, rfl, rfl⟩
    exact ⟨body, rfl, rfl⟩
  · rintro ⟨body, rfl, rfl⟩
    exact ⟨body, [], rfl, rfl, rfl⟩

end Client

end Rest

/-! ## Properties -/

namespace Info

open Rest (Client Call Tuples)

/-- The last of these tuples with this key has this value. -/
def LastValue (tuples : Tuples) (key value : String) : Prop :=
  ∃ after, [key, value] :: after <:+ tuples ∧ ∀ v, [key, v] ∉ after

theorem lastValue_concat {tuples : Tuples} {tuple : List String} {key value : String} :
    LastValue (tuples ++ [tuple]) key value ↔
      tuple = [key, value] ∨ (∀ v, tuple ≠ [key, v]) ∧ LastValue tuples key value := by
  constructor
  · rintro ⟨after, hsuffix, hlast⟩
    obtain h | ⟨before, h, hbefore⟩ := List.suffix_concat_iff.1 hsuffix
    · cases h
    · cases before with
      | nil =>
        cases h
        exact .inl rfl
      | cons first rest =>
        cases h
        refine .inr ⟨fun v hv => hlast v (by simp [hv]), rest, hbefore, fun v hv => hlast v ?_⟩
        exact List.mem_append_left _ hv
  · rintro (rfl | ⟨hne, after, hsuffix, hlast⟩)
    · exact ⟨[], List.suffix_append _ _, by simp⟩
    · refine ⟨after ++ [tuple], List.suffix_concat_iff.2 (.inr ⟨_, rfl, hsuffix⟩), fun v hv => ?_⟩
      rcases List.mem_append.1 hv with hv | hv
      · exact hlast v hv
      · exact hne v (List.mem_singleton.1 hv).symm

/-- Of the values of one property the last one counts. -/
theorem find?_flattened {tuples : Tuples} {key value : String} :
    (flattened tuples).find? key = some value ↔ LastValue tuples key value := by
  induction tuples using List.reverseRecOn with
  | nil => simp [flattened, SortedMap.ofList, LastValue]
  | append_singleton tuples tuple ih =>
    rw [lastValue_concat, ← ih]
    obtain _ | ⟨k, _ | ⟨v, _ | ⟨x, rest⟩⟩⟩ := tuple
    · simp [flattened]
    · simp [flattened]
    · have hconcat : flattened (tuples ++ [[k, v]]) = (flattened tuples).insert k v := by
        simp [flattened, SortedMap.ofList]
      rw [hconcat, SortedMap.find?_insert]
      by_cases hk : k = key <;> simp [hk]
    · simp [flattened]

/-! ## Fetching bodies -/

/-- Fetches the info on an application from the bodies that endpoints have. -/
def fetchBodies (source : Source) (applicationId : String) (recorded : Option Ledger) :
    Dialogue Rest.Fetching (Except Error Info) :=
  Dialogue.via (I := Calling) (fun (client, c) => client.call applicationId c)
    (fetch source applicationId recorded).run

theorem fetchOnWire_eq (settings : Settings) (source : Source) (applicationId : String)
    (recorded : Option Ledger) :
    fetchOnWire settings source applicationId recorded =
      (fetchBodies source applicationId recorded).via (Rest.fetch settings.apiTimeout) :=
  (Dialogue.via_via _).symm

/-- A call and the request that is made for it. -/
def Served (applicationId : String) (e : Exchange Calling) (e' : Exchange Rest.Fetching) : Prop :=
  ∃ body : Except Rest.TransportError ByteArray,
    e' = ⟨Rest.request applicationId e.question, body⟩ ∧
      e.answer = e.question.2.reading (e.question.2.path applicationId) body

variable {source : Source} {applicationId : String} {recorded : Option Ledger}

private theorem relayed_iff {t : Transcript Calling} {t' : Transcript Rest.Fetching} :
    Relayed (I := Calling) (fun (client, c) => client.call applicationId c) t t' ↔
      List.Forall₂ (Served applicationId) t t' := by
  constructor
  · intro h
    induction h with
    | nil => exact .nil
    | cons h _ ih =>
      obtain ⟨body, rfl, rfl⟩ := Client.ends_call.1 h
      exact .cons ⟨body, rfl, rfl⟩ ih
  · intro h
    induction h with
    | nil => exact .nil
    | cons h _ ih =>
      obtain ⟨body, rfl, hanswer⟩ := h
      exact .cons (Client.ends_call.2 ⟨body, rfl, hanswer⟩) ih

theorem asks_fetchBodies {t' : Transcript Rest.Fetching} {q' : Rest.Endpoint × String} :
    (fetchBodies source applicationId recorded).Asks t' q' ↔
      ∃ t q, (fetch source applicationId recorded).run.Asks t q ∧
        List.Forall₂ (Served applicationId) t t' ∧ q' = Rest.request applicationId q := by
  refine Dialogue.asks_via.trans ⟨?_, ?_⟩
  · rintro ⟨t, q, t₀, s, rfl, hasks, ht, hs⟩
    obtain ⟨rfl, rfl⟩ := Client.asks_call.1 hs
    exact ⟨t, q, hasks, by rw [List.append_nil]; exact relayed_iff.1 ht, rfl⟩
  · rintro ⟨t, q, hasks, ht, rfl⟩
    exact ⟨t, q, t', [], (List.append_nil t').symm, hasks, relayed_iff.2 ht,
      Client.asks_call.2 ⟨rfl, rfl⟩⟩

theorem ends_fetchBodies {t' : Transcript Rest.Fetching} {r : Except Error Info} :
    (fetchBodies source applicationId recorded).Ends t' r ↔
      ∃ t, (fetch source applicationId recorded).run.Ends t r ∧
        List.Forall₂ (Served applicationId) t t' :=
  Dialogue.ends_via.trans (exists_congr fun _ => and_congr Iff.rfl relayed_iff)

/-! ## Routes -/

/-- The calls of a transcript. -/
def calls (t : Transcript Calling) : List (Client × Call) := t.map (·.question)

/-- The calls for all that a client reports. -/
def account (client : Client) : List (Client × Call) :=
  [(client, .application), (client, .environment), (client, .stages)]

theorem account_inj {l l' : List (Client × Call)} {client client' : Client}
    (h : l ++ account client = l' ++ account client') : l = l' ∧ client = client' := by
  obtain ⟨hl, hclient⟩ := List.append_inj' h rfl
  cases hclient
  exact ⟨hl, rfl⟩

/-- The calls of a fetch as long as nobody else fails, given the clients there are and whether the
first of them describes the application. -/
def route : Option Client → Option Client → Bool → List (Client × Call)
  | some server, _, true => account server
  | some server, some driver, false => (server, .application) :: account driver
  | some server, none, false => [(server, .application)]
  | none, some driver, _ => account driver
  | none, none, _ => []

/-- Whether the first call has been answered with a report, if it has been made. -/
def answered : Transcript Calling → Bool
  | [] => true
  | ⟨q, a⟩ :: _ => (a : Except Rest.Error q.2.Report).isOk

/-- Who takes over when the call after these exchanges fails. -/
def successor? (history driver : Option Client) : Transcript Calling → Option Client
  | [] => history.bind fun _ => driver
  | _ :: _ => none

section

variable {history driver : Option Client} {t : Transcript Calling} {q : Client × Call}
  {client : Client}

theorem calls_cons (e : Exchange Calling) (t : Transcript Calling) :
    calls (e :: t) = e.question :: calls t := rfl

theorem calls_append (t t' : Transcript Calling) : calls (t ++ t') = calls t ++ calls t' :=
  List.map_append

theorem ofClients?_eq_history {server : Client} {fallback : Option Client} :
    Source.ofClients? history driver = some (.history server fallback) ↔
      history = some server ∧ driver = fallback := by
  cases history <;> cases driver <;> simp [Source.ofClients?]

theorem ofClients?_eq_driver :
    Source.ofClients? history driver = some (.driver client) ↔
      history = none ∧ driver = some client := by
  cases history <;> cases driver <;> simp [Source.ofClients?]

section

variable (hsource : Source.ofClients? history driver = some source)

include hsource

/-- Who describes the application reports on the rest of it. -/
theorem route_of_reaches (h : Reaches source t (client, .application))
    (application : Rest.ApplicationReport) (t' : Transcript Calling) :
    route history driver (answered (t ++ reporting client .application application :: t')) =
      calls t ++ account client := by
  rcases reaches_application.1 h with ⟨rfl, ⟨fallback, rfl⟩ | rfl⟩ | ⟨server, error, rfl, rfl⟩
  · obtain ⟨rfl, rfl⟩ := ofClients?_eq_history.1 hsource
    rfl
  · obtain ⟨rfl, rfl⟩ := ofClients?_eq_driver.1 hsource
    rfl
  · obtain ⟨rfl, rfl⟩ := ofClients?_eq_history.1 hsource
    rfl

theorem isPrefix_route (h : Reaches source t q) :
    calls t ++ [q] <+: route history driver (answered t) := by
  cases h with
  | @server server fallback =>
    obtain ⟨rfl, rfl⟩ := ofClients?_eq_history.1 hsource
    exact ⟨[(server, .environment), (server, .stages)], rfl⟩
  | @driver client =>
    obtain ⟨rfl, rfl⟩ := ofClients?_eq_driver.1 hsource
    exact ⟨[(client, .environment), (client, .stages)], rfl⟩
  | @fallback server driver =>
    obtain ⟨rfl, rfl⟩ := ofClients?_eq_history.1 hsource
    exact ⟨[(driver, .environment), (driver, .stages)], rfl⟩
  | @environment _ t client application h =>
    rw [route_of_reaches hsource h]
    exact ⟨[(client, .stages)], by rw [calls_append, List.append_assoc, List.append_assoc]; rfl⟩
  | stages h =>
    cases h with
    | environment h =>
      rw [List.append_assoc, List.singleton_append, route_of_reaches hsource h]
      exact ⟨[], by rw [calls_append, List.append_assoc, List.append_assoc]; rfl⟩

omit hsource in
theorem successor?_concat {e : Exchange Calling} : successor? history driver (t ++ [e]) = none := by
  cases t <;> rfl

/-- Nobody but a driver behind the history server takes over. -/
theorem reaches_concat_failing (h : Reaches source t q) {error : Rest.Error}
    {q' : Client × Call} :
    Reaches source (t ++ [failing q error]) q' ↔
      ∃ client, successor? history driver t = some client ∧ q' = (client, .application) := by
  constructor
  · intro h'
    generalize ht : t ++ [failing q error] = s at h'
    cases h' with
    | server => simp at ht
    | driver => simp at ht
    | @fallback server driver error' =>
      have hlast : t ++ [failing q error] = [] ++ [failing (server, .application) error'] := ht
      obtain ⟨rfl, -⟩ := List.append_inj' hlast rfl
      obtain ⟨rfl, rfl⟩ := ofClients?_eq_history.1 hsource
      exact ⟨driver, rfl, rfl⟩
    | environment | stages =>
      obtain ⟨-, he⟩ := List.append_inj' ht rfl
      cases he
  · rintro ⟨client, hclient, rfl⟩
    cases h with
    | server =>
      obtain ⟨rfl, rfl⟩ := ofClients?_eq_history.1 hsource
      cases hclient
      exact .fallback
    | driver =>
      obtain ⟨rfl, -⟩ := ofClients?_eq_driver.1 hsource
      cases hclient
    | fallback => cases hclient
    | environment | stages =>
      rw [successor?_concat] at hclient
      cases hclient

theorem final_concat_failing_iff (h : Reaches source t q) {error : Rest.Error} :
    Final source (t ++ [failing q error]) ↔ successor? history driver t = none := by
  simp only [Final, reaches_concat_failing hsource h, Option.eq_none_iff_forall_ne_some]
  constructor
  · exact fun h client hclient => h client ⟨client, hclient, rfl⟩
  · rintro h client ⟨client', hclient, -⟩
    exact h client' hclient

/-- Who reports at the end of a route is the one to describe the application. -/
theorem reaches_iff_calls_eq_route (application : Rest.ApplicationReport) (t' : Transcript Calling)
    (ht' : calls t' = [(client, .environment), (client, .stages)]) :
    Reaches source t (client, .application) ↔
      calls (t ++ reporting client .application application :: t') =
        route history driver (answered (t ++ reporting client .application application :: t')) := by
  have hcalls : calls (t ++ reporting client .application application :: t') =
      calls t ++ account client := by
    rw [calls_append, calls_cons, ht']
    rfl
  rw [hcalls]
  refine ⟨fun h => (route_of_reaches hsource h application t').symm, fun h => ?_⟩
  -- The route ends with three calls to one client, and starts with one more for the fallback only.
  cases t with
  | nil =>
    cases source with
    | history server fallback =>
      obtain ⟨rfl, rfl⟩ := ofClients?_eq_history.1 hsource
      cases h
      exact .server
    | driver client =>
      obtain ⟨rfl, rfl⟩ := ofClients?_eq_driver.1 hsource
      cases h
      exact .driver
  | cons e t =>
    obtain ⟨q, a⟩ := e
    change Except Rest.Error q.2.Report at a
    cases source with
    | driver driver =>
      obtain ⟨rfl, rfl⟩ := ofClients?_eq_driver.1 hsource
      have hnone : calls (⟨q, a⟩ :: t) ++ account client = [] ++ account driver := h
      cases (account_inj hnone).1
    | history server fallback =>
      obtain ⟨rfl, rfl⟩ := ofClients?_eq_history.1 hsource
      cases a with
      | ok report =>
        have hnone : calls (⟨q, .ok report⟩ :: t) ++ account client = [] ++ account server := h
        cases (account_inj hnone).1
      | error error =>
        cases driver with
        | none =>
          have hlength : (calls (_ :: t)).length + 3 = 1 :=
            List.length_append.symm.trans (congrArg List.length h)
          omega
        | some driver =>
          have hone : calls (⟨q, .error error⟩ :: t) ++ account client =
            [(server, .application)] ++ account driver := h
          obtain ⟨hfirst, rfl⟩ := account_inj hone
          obtain ⟨rfl, hrest⟩ := List.cons.inj hfirst
          obtain rfl := List.map_eq_nil_iff.1 hrest
          exact .fallback

end

end

/-- A fetch follows the route of its clients, whatever they answer: it stops at the first failure
that leaves nobody, with that failure as its result, and what it comes to otherwise is all from the
client that described the application. -/
theorem answers_of_one_source {history driver : Option Client} {source : Source}
    (hsource : Source.ofClients? history driver = some source) (applicationId : String)
    (recorded : Option Ledger) :
    -- Each call is one request, and the body of its path decides the answer.
    (∀ settings, fetchOnWire settings source applicationId recorded =
      (fetchBodies source applicationId recorded).via (Rest.fetch settings.apiTimeout)) ∧
    (∀ t' q', (fetchBodies source applicationId recorded).Asks t' q' ↔
      ∃ t q, (fetch source applicationId recorded).run.Asks t q ∧
        List.Forall₂ (Served applicationId) t t' ∧ q' = Rest.request applicationId q) ∧
    (∀ t' r, (fetchBodies source applicationId recorded).Ends t' r ↔
      ∃ t, (fetch source applicationId recorded).run.Ends t r ∧
        List.Forall₂ (Served applicationId) t t') ∧
    -- The calls are the first ones of the route.
    (∀ t (q : Client × Call), (fetch source applicationId recorded).run.Asks t q →
      calls t ++ [q] <+: route history driver (answered t)) ∧
    -- A failure is made up for by the one who takes over, and is the result if there is nobody.
    (∀ t (q : Client × Call) error, (fetch source applicationId recorded).run.Asks t q →
      (∀ client, successor? history driver t = some client → ∀ q' : Client × Call,
        (fetch source applicationId recorded).run.Asks (t ++ [failing q error]) q' ↔
          q' = (client, .application)) ∧
      (successor? history driver t = none →
        (fetch source applicationId recorded).run.Ends (t ++ [failing q error])
          (.error (.api error)) ∧
        ∀ t' q', ¬(fetch source applicationId recorded).run.Asks
          (t ++ [failing q error] ++ t') q')) ∧
    (∀ t e, (fetch source applicationId recorded).run.Ends t (.error e) →
      ∃ t₀ q error, (fetch source applicationId recorded).run.Asks t₀ q ∧
        successor? history driver t₀ = none ∧ t = t₀ ++ [failing q error] ∧ e = .api error) ∧
    -- The reports at the end of the route are from one client, and all of the info is from them.
    (∀ t info, (fetch source applicationId recorded).run.Ends t (.ok info) ↔
      ∃ t₀ client application, ∃ environment : Rest.EnvironmentReport, ∃ window,
        t = t₀ ++ [reporting client .application application,
          reporting client .environment environment, reporting client .stages window] ∧
        calls t = route history driver (answered t) ∧
        info.applicationName = application.name ∧
        info.attempts = application.attempts.map attempt ∧
        (∀ key value, info.properties.find? key = some value ↔
          LastValue environment.sparkProperties key value) ∧
        Update.compute window recorded = .ok info.update) ∧
    -- Each tuple that is no property is dropped with a warning.
    (∀ t lines info client environment,
      (fetch source applicationId recorded).run.EndsSaying t lines (.ok info) →
      reporting client .environment environment ∈ t →
      propertyLines environment.sparkProperties <:+: lines) := by
  refine ⟨fun settings => fetchOnWire_eq settings source applicationId recorded,
    fun _ _ => asks_fetchBodies, fun _ _ => ends_fetchBodies,
    fun t q h => isPrefix_route hsource (asks_fetch.1 h), fun t q error h => ⟨?_, ?_⟩,
    fun t e h => ?_, fun t info => ?_, fun t lines info client environment => ?_⟩
  · intro client hclient q'
    refine asks_fetch.trans ((reaches_concat_failing hsource (asks_fetch.1 h)).trans ?_)
    simp [hclient]
  · intro hnone
    have hends : (fetch source applicationId recorded).run.Ends (t ++ [failing q error])
        (.error (.api error)) := ends_fetch_error.2 ⟨t, q, error, asks_fetch.1 h, rfl,
      (final_concat_failing_iff hsource (asks_fetch.1 h)).2 hnone, rfl⟩
    exact ⟨hends, fun t' q' => Dialogue.not_asks_of_ends hends⟩
  · obtain ⟨t₀, q, error, hreach, rfl, hfinal, rfl⟩ := ends_fetch_error.1 h
    exact ⟨t₀, q, error, asks_fetch.2 hreach, (final_concat_failing_iff hsource hreach).1 hfinal,
      rfl, rfl⟩
  · constructor
    · intro h
      obtain ⟨t₀, client, application, environment, window, update, hreach, rfl, hcompute, rfl⟩ :=
        ends_fetch_ok.1 h
      exact ⟨t₀, client, application, environment, window, rfl,
        (reaches_iff_calls_eq_route hsource application _ rfl).1 hreach, rfl, rfl,
        fun _ _ => find?_flattened, hcompute⟩
    · rintro ⟨t₀, client, application, environment, window, rfl, hroute, hname, hattempts,
        hproperties, hcompute⟩
      refine ends_fetch_ok.2 ⟨t₀, client, application, environment, window, info.update,
        (reaches_iff_calls_eq_route hsource application _ rfl).2 hroute, rfl, hcompute, ?_⟩
      have hflat : info.properties = flattened environment.sparkProperties :=
        SortedMap.ext_find? fun key => Option.ext fun value =>
          (hproperties key value).trans find?_flattened.symm
      cases info
      cases hname
      cases hattempts
      cases hflat
      rfl
  · exact propertyLines_isInfix

/-- The history server does not know the application, and the driver reports a property twice. -/
theorem answers_of_one_source_fallback :
    let server : Client := ⟨.history, .recorded "history"⟩
    let driver : Client := ⟨.driver, .recorded "driver"⟩
    let tuples := [["spark.app.name", "first"], ["dropped"], ["spark.app.name", "last"]]
    Source.ofClients? (some server) (some driver) = some (.history server (some driver)) ∧
    ∃ info, (fetch (.history server (some driver)) "app" none).run.Ends
        [failing (server, .application) (.transport (.http (some 404))),
          reporting driver .application ⟨"app", "Application", []⟩,
          reporting driver .environment ⟨⟨"", "", ""⟩, tuples, [], []⟩,
          reporting driver .stages ([] : Window)] (.ok info) ∧
      info.applicationName = "Application" ∧
      info.properties.find? "spark.app.name" = some "last" := by
  intro server driver tuples
  refine ⟨rfl, ⟨"Application", [], flattened tuples, .full 0 .empty⟩, ?_, rfl, ?_⟩
  · obtain ⟨-, -, -, -, -, -, hok, -⟩ := @answers_of_one_source (some server) (some driver)
      _ rfl "app" none
    exact (hok _ _).2 ⟨[_], driver, _, _, _, rfl, rfl, rfl, rfl, fun _ _ => find?_flattened, rfl⟩
  · exact find?_flattened.2 ⟨[], ⟨[_, _], rfl⟩, by simp⟩

end Info

end SparkLedger
