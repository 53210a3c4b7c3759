import SparkLedger.Proofs.Info.Route
import SparkLedger.Proofs.Rest.Endpoint

/-!
# Who is asked for an application

Which clients there are for a driver, and where their requests go. A history client is there if the
services could be listed and one of them has a name, a driver client if the driver serves requests
and has an address of the kind that is used. Nobody else is asked, and nobody is asked elsewhere.

* `FirstNamed`, `Serves`: the service that counts, and the drivers that serve requests.
* `Addressed`: the endpoints of a service or a pod.
* `HistoryAt`, `DriverAt`: the clients there are.
* `ends_locate`: what a location comes to.
* `Rest.SentTo`: the question with which an endpoint is asked.
* `located_clients_are_exact`: who is found, and where all requests go.
-/

namespace SparkLedger

open Dialogue (Transcript Exchange)

/-! ## Requests to an endpoint -/

/-- The text is all in one part of a URL: it begins neither a query nor a fragment. -/
def Kube.Url.Unparted (s : String) : Prop := ∀ c ∈ s.toList, c ≠ '#' ∧ c ≠ '?'

instance (s : String) : Decidable (Kube.Url.Unparted s) :=
  List.decidableBAll (fun c => c ≠ '#' ∧ c ≠ '?') s.toList

theorem Kube.Url.Unparted.append {s s' : String} (h : Unparted s) (h' : Unparted s') :
    Unparted (s ++ s') := by
  rw [Unparted, String.toList_append]
  exact List.forall_mem_append.2 ⟨h, h'⟩

/-- A path that is sent begins as the text does. -/
theorem Kube.Url.path_of_ofText? {root rest : String} {sent : Kube.Url}
    (h : ofText? (root ++ rest) = some sent) (hroot : Unparted root) :
    ∃ path, sent.path = root ++ path := by
  have hfragment : ∀ c ∈ root.toList, decide (c ≠ '#') = true := fun c hc => by simp [hroot c hc]
  have hquery : ∀ c ∈ root.toList, decide (c ≠ '?') = true := fun c hc => by simp [hroot c hc]
  unfold ofText? at h
  rw [String.toList_append, List.takeWhile_append_of_pos hfragment] at h
  dsimp only at h
  rw [List.takeWhile_append_of_pos hquery, String.ofList_append, String.ofList_toList] at h
  split at h
  · cases h
  · split at h
    · cases h
      exact ⟨_, rfl⟩
    · split at h
      · cases h
        exact ⟨_, rfl⟩
      · cases h

namespace Rest

variable {target : Target} {ns name : String} {port : Port}

/-- What stands before a path behind a pod or a service. -/
def proxyRoot (target : Target) (ns name : String) (port : Port) : String :=
  "/api/v1/namespaces/" ++ ns ++ "/" ++ target.collection ++ "/" ++ name ++ ":" ++
    portText port ++ "/proxy/"

theorem unparted_proxyRoot (hns : Kube.Url.Unparted ns) (hname : Kube.Url.Unparted name) :
    Kube.Url.Unparted (proxyRoot target ns name port) := by
  have hport : Kube.Url.Unparted (portText port) := by
    intro c hc
    have hdigit := isDigit_of_mem_portText hc
    constructor <;> (rintro rfl; cases hdigit)
  have hcollection : Kube.Url.Unparted target.collection := by cases target <;> decide
  have hfixed : Kube.Url.Unparted "/api/v1/namespaces/" ∧ Kube.Url.Unparted "/" ∧
      Kube.Url.Unparted ":" ∧ Kube.Url.Unparted "/proxy/" := by decide
  obtain ⟨hroot, hslash, hcolon, hproxy⟩ := hfixed
  unfold proxyRoot
  exact .append (.append (.append (.append (.append (.append (.append (.append hroot hns) hslash)
    hcollection) hslash) hname) hcolon) hport) hproxy

/-- The question with which an endpoint is asked for the body of a path. -/
inductive SentTo (limit : Seconds) (path : String) : Endpoint → Wire.Question → Prop where
  | proxied {target : Target} {ns name : String} {port : Port} {sent : Kube.Url}
    (hsent : Kube.Url.ofText? (proxyUrl target ns name port path) = some sent) :
    SentTo limit path (.proxied target ns name port) (.sendWithin ⟨.get, sent, none⟩ limit)
  | direct {host : String} {port : Port} :
    SentTo limit path (.direct host port) (.fetch (directUrl host port path))

theorem sentTo_of_asks_fetch {limit : Seconds} {e : Endpoint} {path : String}
    {t : Transcript Wire} {q : Wire.Question} (h : (fetch limit (e, path)).Asks t q) :
    SentTo limit path e q := by
  cases e with
  | proxied target ns name port =>
    rw [fetch, fetchProxied] at h
    split at h
    · exact h.elim
    · rename_i sent hsent
      rcases h with ⟨-, rfl⟩ | ⟨reply, _, -, h⟩
      · exact .proxied hsent
      · cases reply <;> exact h.elim
  | direct host port =>
    rcases h with ⟨-, rfl⟩ | ⟨_, _, -, h⟩
    · exact .direct
    · exact h.elim
  | recorded name => exact h.elim

/-- What goes to the proxy goes to the root of its target, whatever the path. -/
theorem SentTo.path_eq {limit : Seconds} {path : String} {request : Kube.Request}
    (h : SentTo limit path (.proxied target ns name port) (.sendWithin request limit))
    (hns : Kube.Url.Unparted ns) (hname : Kube.Url.Unparted name) :
    ∃ rest, request.url.path = proxyRoot target ns name port ++ rest := by
  cases h with
  | proxied hsent => exact Kube.Url.path_of_ofText? hsent (unparted_proxyRoot hns hname)

end Rest

namespace Info

open Rest (Client Endpoint Target)

variable {settings : Settings} {driver : Pod} {ns name : String} {c : Client}
  {services : Except Kube.Error (List Service)}

/-! ## Clients -/

/-- The first service of a list that has a name has this one. -/
def FirstNamed (list : List Service) (name : String) : Prop :=
  ∃ before service after, list = before ++ service :: after ∧
    service.metadata.name = some name ∧ ∀ s ∈ before, s.metadata.name = none

/-- The first container of the driver runs, and the driver is ready. -/
def Serves (driver : Pod) : Prop :=
  ∃ status, driver.status = some status ∧
    (∃ container others state, status.containers = some (container :: others) ∧
      container.state = some state ∧ state.running.isSome = true) ∧
    ∃ conditions, status.conditions = some conditions ∧
      ∃ condition ∈ conditions, condition.type = "Ready" ∧ condition.status = "True"

/-- Where a service or a pod is addressed: behind the proxy, or directly at its host if it has one
yet. -/
inductive Addressed (settings : Settings) (target : Target) (ns name : String)
    (host? : Option String) (port : Port) : Endpoint → Prop where
  | proxied (h : settings.directHttp = false) :
    Addressed settings target ns name host? port (.proxied target ns name port)
  | direct {host : String} (h : settings.directHttp = true) (hhost : host? = some host) :
    Addressed settings target ns name host? port (.direct host port)

/-- The history server that these services give. -/
structure HistoryAt (settings : Settings) (ns : String)
    (services : Except Kube.Error (List Service)) (c : Client) : Prop where
  origin : c.origin = .history
  found : ∃ list name, services = .ok list ∧ FirstNamed list name ∧
    Addressed settings .service ns name (some (name ++ "." ++ ns ++ ".svc")) settings.historyPort
      c.endpoint

/-- The driver as a server of the API. -/
structure DriverAt (settings : Settings) (driver : Pod) (ns name : String) (c : Client) :
    Prop where
  origin : c.origin = .driver
  serves : Serves driver
  found : Addressed settings .pod ns name (driver.status.bind (·.ip)) settings.driverPort c.endpoint

theorem isPrimaryRunning_iff {status : Pod.Status} :
    Pod.isPrimaryRunning status = true ↔ ∃ container others state,
      status.containers = some (container :: others) ∧ container.state = some state ∧
        state.running.isSome = true := by
  rw [Pod.isPrimaryRunning, Option.any_eq_true]
  constructor
  · rintro ⟨state, hstate, hrunning⟩
    obtain ⟨container, hcontainer, hstate⟩ := Option.bind_eq_some_iff.1 hstate
    obtain ⟨containers, hcontainers, hfirst⟩ := Option.bind_eq_some_iff.1 hcontainer
    obtain ⟨others, rfl⟩ := List.head?_eq_some_iff.1 hfirst
    exact ⟨container, others, state, hcontainers, hstate, hrunning⟩
  · rintro ⟨container, others, state, hcontainers, hstate, hrunning⟩
    exact ⟨state, by rw [hcontainers]; exact hstate, hrunning⟩

theorem isReady_iff {status : Pod.Status} :
    Pod.isReady status = true ↔ ∃ conditions, status.conditions = some conditions ∧
      ∃ condition ∈ conditions, condition.type = "Ready" ∧ condition.status = "True" := by
  rw [Pod.isReady]
  cases status.conditions with
  | none => simp
  | some conditions => simp

theorem isServing_iff : driver.isServing = true ↔ Serves driver := by
  rw [Pod.isServing, Option.any_eq_true]
  refine exists_congr fun status => and_congr_right' ?_
  rw [Bool.and_eq_true, isPrimaryRunning_iff, isReady_iff]

theorem endpoint?_eq_some_iff {target : Target} {host? : Option String} {port : Port}
    {e : Endpoint} :
    endpoint? settings target ns name host? port = some e ↔
      Addressed settings target ns name host? port e := by
  unfold endpoint?
  constructor
  · intro h
    split at h
    · rename_i hdirect
      obtain ⟨host, hhost, rfl⟩ := Option.map_eq_some_iff.1 h
      exact .direct hdirect hhost
    · rename_i hproxied
      cases h
      exact .proxied (Bool.eq_false_iff.2 hproxied)
  · rintro (hproxied | ⟨hdirect, hhost⟩)
    · rw [hproxied]
      rfl
    · rw [hdirect, hhost]
      rfl

/-- The history server that is found among the services. -/
def foundHistory? (settings : Settings) (ns : String) :
    Except Kube.Error (List Service) → Option Client
  | .error _ => none
  | .ok services => (services.findSome? (·.metadata.name)).bind fun name =>
    (endpoint? settings .service ns name (some (name ++ "." ++ ns ++ ".svc"))
      settings.historyPort).map fun e => ⟨.history, e⟩

theorem foundHistory?_eq_some_iff :
    foundHistory? settings ns services = some c ↔ HistoryAt settings ns services c := by
  constructor
  · intro h
    cases services with
    | error error => cases h
    | ok list =>
      obtain ⟨name, hname, h⟩ := Option.bind_eq_some_iff.1 h
      obtain ⟨e, he, rfl⟩ := Option.map_eq_some_iff.1 h
      exact ⟨rfl, list, name, rfl, List.findSome?_eq_some_iff.1 hname, endpoint?_eq_some_iff.1 he⟩
  · rintro ⟨horigin, list, name, rfl, hname, he⟩
    obtain ⟨origin, e⟩ := c
    cases horigin
    have hname : list.findSome? (·.metadata.name) = some name :=
      List.findSome?_eq_some_iff.2 hname
    refine Option.bind_eq_some_iff.2 ⟨name, hname, ?_⟩
    exact Option.map_eq_some_iff.2 ⟨e, endpoint?_eq_some_iff.2 he, rfl⟩

/-- The driver, if it serves and has an address. -/
def servingDriver? (settings : Settings) (driver : Pod) (ns name : String) : Option Client :=
  if driver.isServing then
    (endpoint? settings .pod ns name (driver.status.bind (·.ip)) settings.driverPort).map
      fun e => ⟨.driver, e⟩
  else none

theorem servingDriver?_eq_some_iff :
    servingDriver? settings driver ns name = some c ↔ DriverAt settings driver ns name c := by
  rw [servingDriver?, Option.ite_none_right_eq_some, isServing_iff, Option.map_eq_some_iff]
  constructor
  · rintro ⟨hserves, e, he, rfl⟩
    exact ⟨rfl, hserves, endpoint?_eq_some_iff.1 he⟩
  · rintro ⟨horigin, hserves, he⟩
    obtain ⟨origin, e⟩ := c
    cases horigin
    exact ⟨hserves, e, endpoint?_eq_some_iff.2 he, rfl⟩

/-! ## Locating -/

theorem ends_historyClient? {t : Transcript Listing} {h : Option Client} :
    (historyClient? settings ns).Ends t h ↔
      ∃ services : Except Kube.Error (List Service),
        t = [⟨(ns, settings.historySelector), services⟩] ∧
          h = foundHistory? settings ns services := by
  have hnext {services : Except Kube.Error (List Service)} {t : Transcript Listing} :
      (historyClient? settings ns).Ends (⟨(ns, settings.historySelector), services⟩ :: t) h ↔
        t = [] ∧ h = foundHistory? settings ns services := by
    refine Dialogue.ends_ask_cons.trans ?_
    cases services with
    | error error => exact Iff.rfl
    | ok list =>
      dsimp only [Dialogue.bind, foundHistory?]
      cases list.findSome? (·.metadata.name) <;> exact Iff.rfl
  constructor
  · rintro ⟨services, t', rfl, hends⟩
    obtain ⟨rfl, rfl⟩ := hnext.1 ⟨services, t', rfl, hends⟩
    exact ⟨services, rfl, rfl⟩
  · rintro ⟨services, rfl, rfl⟩
    exact hnext.2 ⟨rfl, rfl⟩

theorem ends_driverClient? (hplace : driver.metadata.identity? = some (ns, name))
    {t : Transcript Listing} {d : Option Client} :
    (driverClient? settings driver).Ends t d ↔
      t = [] ∧ d = servingDriver? settings driver ns name := by
  unfold driverClient? servingDriver?
  rw [hplace]
  cases driver.isServing with
  | false => exact Iff.rfl
  | true =>
    cases he : endpoint? settings .pod ns name (driver.status.bind (·.ip)) settings.driverPort with
    | none =>
      dsimp only
      rw [he]
      exact Iff.rfl
    | some e =>
      dsimp only
      rw [he]
      exact Iff.rfl

/-- A location comes to the source of the clients there are, or to none. -/
theorem ends_locate (hplace : driver.metadata.identity? = some (ns, name))
    {t : Transcript Listing} {r : Except Error Source} :
    (locate settings driver).Ends t r ↔ ∃ services : Except Kube.Error (List Service),
      t = [⟨(ns, settings.historySelector), services⟩] ∧
        r = (Source.ofClients? (foundHistory? settings ns services)
          (servingDriver? settings driver ns name)).elim (.error .noClient) .ok := by
  rw [locate, (Object.Metadata.identity?_eq_some_iff.1 hplace).1]
  refine Dialogue.ends_bind.trans ⟨?_, ?_⟩
  · rintro ⟨t₁, t', history, rfl, hhistory, h⟩
    obtain ⟨services, rfl, rfl⟩ := ends_historyClient?.1 hhistory
    obtain ⟨t₂, t₃, driver', rfl, hdriver, h⟩ := Dialogue.ends_bind.1 h
    obtain ⟨rfl, rfl⟩ := (ends_driverClient? hplace).1 hdriver
    refine ⟨services, ?_⟩
    cases hsource : Source.ofClients? (foundHistory? settings ns services)
      (servingDriver? settings driver ns name)
    all_goals
      rw [hsource] at h
      obtain ⟨rfl, rfl⟩ := h
      exact ⟨rfl, rfl⟩
  · rintro ⟨services, rfl, rfl⟩
    refine ⟨_, [], _, rfl, ends_historyClient?.2 ⟨services, rfl, rfl⟩, Dialogue.ends_bind.2 ?_⟩
    refine ⟨[], [], _, rfl, (ends_driverClient? hplace).2 ⟨rfl, rfl⟩, ?_⟩
    cases Source.ofClients? (foundHistory? settings ns services)
      (servingDriver? settings driver ns name) <;> exact ⟨rfl, rfl⟩

/-- A location asks for the services that the selector finds, and for nothing else. -/
theorem asks_locate (hplace : driver.metadata.identity? = some (ns, name))
    {t : Transcript Listing} {q : Listing.Question} :
    (locate settings driver).Asks t q ↔ t = [] ∧ q = (ns, settings.historySelector) := by
  have hns := (Object.Metadata.identity?_eq_some_iff.1 hplace).1
  constructor
  · intro h
    have hasks := h
    rw [locate, hns] at h
    rcases h with h | ⟨services, t', rfl, -⟩
    · exact h
    · have hends := (@ends_locate settings _ _ _ hplace _ _).2 ⟨services, rfl, rfl⟩
      exact absurd hasks (Dialogue.not_asks_of_ends hends)
  · intro h
    rw [locate, hns]
    exact .inl h

/-! ## Requests -/

/-- The clients of a source. -/
def Source.clients : Source → List Client
  | .history server fallback => server :: fallback.toList
  | .driver client => [client]

theorem mem_clients_of_ofClients? {history driver : Option Client} {source : Source}
    (hsource : Source.ofClients? history driver = some source) (hc : c ∈ source.clients) :
    history = some c ∨ driver = some c := by
  cases source with
  | history server fallback =>
    obtain ⟨rfl, rfl⟩ := ofClients?_eq_history.1 hsource
    rcases List.mem_cons.1 hc with rfl | hc
    · exact .inl rfl
    · exact .inr (Option.mem_toList.1 hc)
  | driver client =>
    obtain ⟨rfl, rfl⟩ := ofClients?_eq_driver.1 hsource
    cases List.mem_singleton.1 hc
    exact .inr rfl

/-- A fetch calls nobody but the clients of its source. -/
theorem mem_clients_of_reaches {source : Source} {t : Transcript Calling} {q : Client × Rest.Call}
    (h : Reaches source t q) : q.1 ∈ source.clients := by
  induction h with
  | server => exact List.mem_cons_self
  | driver => exact List.mem_cons_self
  | fallback => exact .tail _ (.head _)
  | environment _ ih => exact ih
  | stages _ ih => exact ih

/-- A fetch asks nobody but the endpoints of its clients. -/
theorem sentTo_of_asks_fetchOnWire {source : Source} {applicationId : String}
    {recorded : Option Ledger} {t : Transcript Wire} {q : Wire.Question}
    (h : (fetchOnWire settings source applicationId recorded).Asks t q) :
    ∃ c ∈ source.clients, ∃ call : Rest.Call,
      Rest.SentTo settings.apiTimeout (call.path applicationId) c.endpoint q := by
  rw [fetchOnWire_eq] at h
  obtain ⟨_, _, _, _, -, hasks, -, hsent⟩ := Dialogue.asks_via.1 h
  obtain ⟨_, ⟨c, call⟩, hreaches, -, rfl⟩ := asks_fetchBodies.1 hasks
  exact ⟨c, mem_clients_of_reaches (asks_fetch.1 hreaches), call, Rest.sentTo_of_asks_fetch hsent⟩

/-! ## Exactly these clients -/

/-- There is a history client exactly if the services could be listed and one of them has a
name. -/
theorem exists_historyAt_iff :
    (∃ c, HistoryAt settings ns services c) ↔
      ∃ list, services = .ok list ∧ ∃ s ∈ list, s.metadata.name.isSome = true := by
  constructor
  · rintro ⟨c, -, list, name, hlist, ⟨before, s, after, rfl, hname, -⟩, -⟩
    refine ⟨_, hlist, s, ?_, Option.isSome_of_eq_some hname⟩
    exact List.mem_append_right _ List.mem_cons_self
  · rintro ⟨list, rfl, hnamed⟩
    have hsome : (list.findSome? (·.metadata.name)).isSome = true := by
      rwa [List.isSome_findSome?, List.any_eq_true]
    obtain ⟨name, hname⟩ := Option.isSome_iff_exists.1 hsome
    have hfirst : FirstNamed list name := List.findSome?_eq_some_iff.1 hname
    cases hdirect : settings.directHttp with
    | false => exact ⟨⟨.history, _⟩, rfl, list, name, rfl, hfirst, .proxied hdirect⟩
    | true => exact ⟨⟨.history, _⟩, rfl, list, name, rfl, hfirst, .direct hdirect rfl⟩

/-- There is a driver client exactly if the driver serves and has an address where one is needed. -/
theorem exists_driverAt_iff :
    (∃ c, DriverAt settings driver ns name c) ↔
      Serves driver ∧ (settings.directHttp = true → (driver.status.bind (·.ip)).isSome = true) := by
  constructor
  · rintro ⟨⟨_, e⟩, -, hserves, he⟩
    refine ⟨hserves, fun hdirect => ?_⟩
    cases he with
    | proxied hproxied => cases hproxied.symm.trans hdirect
    | direct _ hhost => exact Option.isSome_of_eq_some hhost
  · rintro ⟨hserves, haddress⟩
    cases hdirect : settings.directHttp with
    | false => exact ⟨⟨.driver, _⟩, rfl, hserves, .proxied hdirect⟩
    | true =>
      obtain ⟨host, hhost⟩ := Option.isSome_iff_exists.1 (haddress hdirect)
      exact ⟨⟨.driver, _⟩, rfl, hserves, .direct hdirect hhost⟩

/-- What a location comes to, given the services that are listed. -/
private theorem ends_locate_listed (hplace : driver.metadata.identity? = some (ns, name))
    {r : Except Error Source} :
    (locate settings driver).Ends [⟨(ns, settings.historySelector), services⟩] r ↔
      r = (Source.ofClients? (foundHistory? settings ns services)
        (servingDriver? settings driver ns name)).elim (.error .noClient) .ok := by
  refine (ends_locate hplace).trans ⟨?_, fun hr => ⟨services, rfl, hr⟩⟩
  rintro ⟨services', ht, hr⟩
  cases ht
  exact hr

private theorem ends_locate_ofClients? (hplace : driver.metadata.identity? = some (ns, name))
    {source : Source} :
    (locate settings driver).Ends [⟨(ns, settings.historySelector), services⟩] (.ok source) ↔
      Source.ofClients? (foundHistory? settings ns services)
        (servingDriver? settings driver ns name) = some source := by
  rw [ends_locate_listed hplace]
  cases Source.ofClients? (foundHistory? settings ns services)
    (servingDriver? settings driver ns name) <;> simp [eq_comm]

/-- A location fails exactly if nobody is there. -/
theorem ends_locate_error (hplace : driver.metadata.identity? = some (ns, name)) {e : Error} :
    (locate settings driver).Ends [⟨(ns, settings.historySelector), services⟩] (.error e) ↔
      e = .noClient ∧ (¬∃ c, HistoryAt settings ns services c) ∧
        ¬∃ c, DriverAt settings driver ns name c := by
  simp only [← foundHistory?_eq_some_iff, ← servingDriver?_eq_some_iff]
  rw [ends_locate_listed hplace]
  cases foundHistory? settings ns services <;> cases servingDriver? settings driver ns name <;>
    simp [Source.ofClients?]

/-- Where somebody is there, a location gives all who are. -/
theorem ends_locate_ok (hplace : driver.metadata.identity? = some (ns, name)) {source : Source} :
    (locate settings driver).Ends [⟨(ns, settings.historySelector), services⟩] (.ok source) ↔
      ∃ history serving, Source.ofClients? history serving = some source ∧
        (∀ c, history = some c ↔ HistoryAt settings ns services c) ∧
        ∀ c, serving = some c ↔ DriverAt settings driver ns name c := by
  rw [ends_locate_ofClients? hplace]
  constructor
  · intro h
    exact ⟨_, _, h, fun _ => foundHistory?_eq_some_iff, fun _ => servingDriver?_eq_some_iff⟩
  · rintro ⟨history, serving, h, hhistory, hserving⟩
    obtain rfl : history = foundHistory? settings ns services :=
      Option.ext fun c => (hhistory c).trans foundHistory?_eq_some_iff.symm
    obtain rfl : serving = servingDriver? settings driver ns name :=
      Option.ext fun c => (hserving c).trans servingDriver?_eq_some_iff.symm
    exact h

/-- Every request of a source that was located goes to one of those who are there. -/
theorem sentTo_of_located (hplace : driver.metadata.identity? = some (ns, name)) {source : Source}
    (hsource :
      (locate settings driver).Ends [⟨(ns, settings.historySelector), services⟩] (.ok source))
    {applicationId : String} {recorded : Option Ledger} {t : Transcript Wire} {q : Wire.Question}
    (hasks : (fetchOnWire settings source applicationId recorded).Asks t q) :
    ∃ c, (HistoryAt settings ns services c ∨ DriverAt settings driver ns name c) ∧
      ∃ call : Rest.Call,
        Rest.SentTo settings.apiTimeout (call.path applicationId) c.endpoint q := by
  obtain ⟨c, hc, call, hsent⟩ := sentTo_of_asks_fetchOnWire hasks
  have hthere := mem_clients_of_ofClients? ((ends_locate_ofClients? hplace).1 hsource) hc
  exact ⟨c, hthere.imp foundHistory?_eq_some_iff.1 servingDriver?_eq_some_iff.1, call, hsent⟩

/-- A driver's location asks once for services. It fails exactly if there is no history client and
no driver client, which is for nothing but the lack of a named service and of a driver that serves
at an address, and else gives just these clients. All requests of the source go to them. -/
theorem located_clients_are_exact (hplace : driver.metadata.identity? = some (ns, name)) :
    (∀ t q, (locate settings driver).Asks t q ↔ t = [] ∧ q = (ns, settings.historySelector)) ∧
    ∀ services : Except Kube.Error (List Service),
      let t : Transcript Listing := [⟨(ns, settings.historySelector), services⟩]
      -- Who is there.
      ((∃ c, HistoryAt settings ns services c) ↔
        ∃ list, services = .ok list ∧ ∃ s ∈ list, s.metadata.name.isSome = true) ∧
      ((∃ c, DriverAt settings driver ns name c) ↔
        Serves driver ∧
          (settings.directHttp = true → (driver.status.bind (·.ip)).isSome = true)) ∧
      -- A location fails if nobody is there, and else gives all who are.
      (∀ e, (locate settings driver).Ends t (.error e) ↔ e = .noClient ∧
        (¬∃ c, HistoryAt settings ns services c) ∧ ¬∃ c, DriverAt settings driver ns name c) ∧
      (∀ source, (locate settings driver).Ends t (.ok source) ↔
        ∃ history serving, Source.ofClients? history serving = some source ∧
          (∀ c, history = some c ↔ HistoryAt settings ns services c) ∧
          ∀ c, serving = some c ↔ DriverAt settings driver ns name c) ∧
      -- Every request goes to one of them, and what goes to the proxy goes to its target there.
      ∀ source, (locate settings driver).Ends t (.ok source) → ∀ applicationId recorded t' q,
        (fetchOnWire settings source applicationId recorded).Asks t' q →
        ∃ c, (HistoryAt settings ns services c ∨ DriverAt settings driver ns name c) ∧
          (∃ call : Rest.Call,
            Rest.SentTo settings.apiTimeout (call.path applicationId) c.endpoint q) ∧
          ∀ target name' port request, c.endpoint = .proxied target ns name' port →
            q = .sendWithin request settings.apiTimeout →
            Kube.Url.Unparted ns → Kube.Url.Unparted name' →
            ∃ rest, request.url.path = Rest.proxyRoot target ns name' port ++ rest := by
  refine ⟨fun t q => asks_locate hplace, fun services => ?_⟩
  intro t
  refine ⟨exists_historyAt_iff, exists_driverAt_iff, fun e => ends_locate_error hplace,
    fun source => ends_locate_ok hplace, ?_⟩
  intro source hsource applicationId recorded t' q hasks
  obtain ⟨c, hthere, call, hsent⟩ := sentTo_of_located hplace hsource hasks
  refine ⟨c, hthere, ⟨call, hsent⟩, fun target name' port request he hq hns hname => ?_⟩
  rw [he, hq] at hsent
  exact hsent.path_eq hns hname

/-- A driver that serves requests. -/
def runningDriver : Pod where
  metadata := { Object.Metadata.empty with
    name := some "driver-1"
    ns := some "jobs" }
  status := some {
    phase := some "Running"
    ip := none
    conditions := some [⟨"PodScheduled", "True"⟩, ⟨"Ready", "True"⟩]
    containers := some [⟨"driver", true, 0, "", "", some ⟨some ⟨none⟩, none, none⟩⟩] }

/-- The second of two services has a name. -/
theorem located_clients_are_exact_running :
    let services : List Service :=
      [⟨.empty⟩, ⟨{ Object.Metadata.empty with name := some "history" }⟩]
    let t : Transcript Listing := [⟨("jobs", Settings.standard.historySelector),
      (.ok services : Except Kube.Error (List Service))⟩]
    let server : Client :=
      ⟨.history, .proxied .service "jobs" "history" Settings.standard.historyPort⟩
    let driver : Client :=
      ⟨.driver, .proxied .pod "jobs" "driver-1" Settings.standard.driverPort⟩
    (locate .standard runningDriver).Ends t (.ok (.history server (some driver))) ∧
      ¬(locate .standard runningDriver).Ends t (.error .noClient) := by
  intro services t server driver
  have hplace : runningDriver.metadata.identity? = some ("jobs", "driver-1") := rfl
  obtain ⟨-, hexact⟩ := @located_clients_are_exact .standard _ _ _ hplace
  obtain ⟨hhistory, -, herror, hok, -⟩ := hexact (.ok services)
  refine ⟨(hok _).2 ⟨some server, some driver, rfl, fun c => ?_, fun c => ?_⟩, fun h => ?_⟩
  · have hfound : foundHistory? .standard "jobs" (.ok services) = some server := rfl
    rw [← hfound]
    exact foundHistory?_eq_some_iff
  · have hserving : servingDriver? .standard runningDriver "jobs" "driver-1" = some driver := rfl
    rw [← hserving]
    exact servingDriver?_eq_some_iff
  · obtain ⟨-, hnone, -⟩ := (herror _).1 h
    exact hnone (hhistory.2 ⟨services, rfl, _, .tail _ (.head _), rfl⟩)

end Info

end SparkLedger
