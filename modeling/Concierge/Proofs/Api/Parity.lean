import Concierge.Client
import Concierge.Proofs.Api.Hosts
import Concierge.Proofs.Sync.Dependence
import Concierge.Proofs.Sync.Outcome

/-!
# Two ways to ask

A tenant is asked over HTTP, by the host name of the account, or by a caller inside the process, by
the account's identifier.  Both look the account up and then do the same, so what differs between them
afterwards is which call was counted, and that is nothing to what comes later.

The two tell failures apart in their own words.  They do so alike, because no request that found its
tenant fails with an unknown host, the one failure on which they disagree.
-/

namespace Concierge

open Fallible

variable {σ α : Type}

/-! ## Requests depend on the calls that they make -/

/-- The calls that are made once the account is found. -/
def laterCalls : List Call :=
  [.findPerson, .createPerson, .updatePerson, .findDoor, .findLinks, .createLink]

namespace Action

variable {cs : List Call}

theorem respects_query {q : Query α} (hq : Respects (Store.Agree cs) q) :
    Respects (World.Agree cs) (Action.query q : Action σ α) := by
  intro w w' h
  obtain ⟨hanswer, hstore⟩ := hq h.store
  exact ⟨hanswer, hstore, h.outside, h.pending⟩

theorem respects_report (e : Event) : Respects (World.Agree cs) (report e : Action σ Unit) :=
  fun _ _ h => ⟨rfl, h.store, by simp only [report, World.report, h.outside], h.pending⟩

theorem respects_promise (d : Delivery) : Respects (World.Agree cs) (promise d : Action σ Unit) :=
  fun _ _ h => ⟨rfl, h.store, h.outside, by simp only [promise, h.pending]⟩

end Action

namespace Service

variable (service : Service σ)

theorem respects_person (account : Account) (id : Uuid) :
    Respects (World.Agree laterCalls) (person account id : Action σ Person) := by
  have hfind := Query.respects_call (show Call.findPerson ∈ laterCalls by decide)
    fun t => .ok (t.person? account.id id, t)
  rw [← Query.findPerson_eq_call] at hfind
  refine respects_bind (Action.respects_query hfind) fun found => ?_
  cases found with
  | none => exact respects_throw _
  | some person => exact respects_pure _

theorem respects_door (account : Account) (id : Uuid) :
    Respects (World.Agree laterCalls) (door account id : Action σ Door) := by
  have hfind := Query.respects_call (show Call.findDoor ∈ laterCalls by decide)
    fun t => .ok (t.door? account.id id, t)
  rw [← Query.findDoor_eq_call] at hfind
  refine respects_bind (Action.respects_query hfind) fun found => ?_
  cases found with
  | none => exact respects_throw _
  | some door => exact respects_pure _

theorem respects_dispatch (account : Account) (door : Door) (person : Person) :
    Respects (World.Agree laterCalls) (service.dispatch account door person) := by
  unfold dispatch
  cases Delivery.candidates service.providers account person with
  | nil => exact respects_bind (Action.respects_report _) fun _ => respects_pure _
  | cons candidate others => exact respects_bind (Action.respects_promise _) fun _ => respects_pure _

theorem respects_knock (account : Account) (doorId personId : Uuid) :
    Respects (World.Agree laterCalls) (service.knock account doorId personId) := by
  refine respects_bind (respects_person account personId) fun person => ?_
  by_cases hreachable : person.isVisible = true ∧ person.isAvailable = true
  · simp only [hreachable, and_self, not_true_eq_false, if_false]
    exact respects_bind (respects_door account doorId) fun door =>
      service.respects_dispatch account door person
  · simp only [hreachable, not_false_eq_true, if_true]
    exact respects_throw _

theorem respects_syncPeople (account : Account) :
    Respects (World.Agree laterCalls) (service.syncPeople account) :=
  Sync.respects_run (by decide) (by decide) _ _ _ _

/-- What a knock comes to if nothing is refused to it. -/
def verdict (t : Tables) (account : Account) (doorId personId : Uuid) :
    Except ServiceError KnockOutcome :=
  match t.person? account.id personId with
  | none => .error (.notFound .person personId)
  | some person =>
    if person.IsReachable then
      match t.door? account.id doorId with
      | none => .error (.notFound .door doorId)
      | some _ =>
        match Delivery.channels service.providers account person with
        | [] => .ok .noChannel
        | channels => .ok (.accepted channels)
    else .error (.forbidden "person is not reachable")

end Service

namespace Knocked

variable {service : Service σ} {account : Account} {doorId personId : Uuid} {w w' : World σ}
  {result : Except ServiceError KnockOutcome}

/-- Without refusals the rows decide. -/
theorem result_eq_verdict {t : Tables} (h : Knocked service account doorId personId w (result, w'))
    (ht : w.store.tables = some t) (hperson : w.store.admits .findPerson = true)
    (hdoor : w.store.admits .findDoor = true) :
    result = service.verdict t account doorId personId := by
  cases h with
  | storage reason refused =>
    rcases refused with hrefused | hrefused | hnone
    · cases hperson.symm.trans hrefused
    · cases hdoor.symm.trans hrefused
    · cases ht.symm.trans hnone
  | nobody tables missing =>
    obtain rfl := Option.some.inj (ht.symm.trans tables)
    simp only [Service.verdict, missing]
  | unreachable tables found hidden =>
    obtain rfl := Option.some.inj (ht.symm.trans tables)
    simp only [Service.verdict, found, hidden, if_false]
  | noDoor tables found reachable missing =>
    obtain rfl := Option.some.inj (ht.symm.trans tables)
    simp only [Service.verdict, found, reachable, if_true, missing]
  | noChannel tables found reachable entry none =>
    obtain rfl := Option.some.inj (ht.symm.trans tables)
    simp only [Service.verdict, found, reachable, if_true, entry, none]
  | accepted tables found reachable entry some =>
    obtain rfl := Option.some.inj (ht.symm.trans tables)
    simp only [Service.verdict, found, reachable, if_true, entry]

/-- A knock never fails with an unknown host. -/
theorem ne_unknownHost (h : Knocked service account doorId personId w (result, w')) (host : String) :
    result ≠ .error (.unknownHost host) := by
  cases h <;> simp

/-- A knock that fails promises nothing. -/
theorem promises (h : Knocked service account doorId personId w (result, w')) :
    ∃ promised, w'.pending = w.pending ++ promised ∧ ((∃ e, result = .error e) → promised = []) := by
  cases h with
  | accepted => exact ⟨[_], rfl, fun ⟨e, he⟩ => by cases he⟩
  | _ => exact ⟨[], (List.append_nil _).symm, fun _ => rfl⟩

end Knocked

/-- A synchronization never fails with an unknown host. -/
theorem Service.syncPeople_ne_unknownHost (service : Service σ) (account : Account) {w : World σ}
    {t : Tables} (ht : w.store.tables = some t) (hk : t.Keyed) (host : String) :
    (service.syncPeople account w).1 ≠ .error (.unknownHost host) := by
  rcases Sync.run_cases service.settings.matchKey service.settings.syncBridges service.fetching
    account ht hk with ⟨w', t', hrun, -⟩ | ⟨e, w', hrun, -, hfailure⟩
  · rw [syncPeople, hrun]
    simp
  · rw [syncPeople, hrun]
    cases hfailure <;> simp

/-! ## Answers that say the same -/

namespace Api

/-- The report that something is not found. -/
def missingProblem (resource : Resource) : Problem :=
  ⟨404, "Not Found", resource.name ++ " not found", none⟩

/-- An answer over HTTP, to a request that is traced under a name, says what a caller inside the process
is told. -/
inductive Tells (success : Nat) (trace : Option String) : Except ClientError α → Response → Prop where
  | ok (x : α) {response : Response} (status : response.status = success) :
      Tells success trace (.ok x) response
  | notFound (resource : Resource) (id : Uuid) :
      Tells success trace (.error (.notFound resource id))
        (.ofProblem ((missingProblem resource).withTrace trace))
  | forbidden (reason : String) :
      Tells success trace (.error (.forbidden reason))
        (.ofProblem ⟨403, "Forbidden", reason, trace⟩)
  | invalid (message : String) {response : Response} (status : response.status = 422) :
      Tells success trace (.error (.invalid message)) response
  | internal :
      Tells success trace (.error .internal)
        (.ofProblem ⟨500, "Internal Server Error", "An internal error occurred", trace⟩)

/-- Failures are told apart in the same way, unless a host is unknown. -/
theorem tells_error (success : Nat) (trace : Option String) {e : ServiceError}
    (h : ∀ host, e ≠ .unknownHost host) :
    Tells success trace (.error e.toClient : Except ClientError α)
      (.ofProblem ((Problem.ofError e).withTrace trace)) := by
  cases e with
  | notFound resource id => exact .notFound resource id
  | unknownHost host => exact absurd rfl (h host)
  | forbidden reason => exact .forbidden reason
  | invalid field message => exact .invalid _ rfl
  | database reason => exact .internal

/-- The status of an answer over HTTP corresponds to what a caller inside the process is told. -/
structure Corresponds (success : Nat) (trace : Option String) (told : Except ClientError α)
    (response : Response) : Prop where
  ok : response.status = success ↔ ∃ x, told = .ok x
  notFound : response.status = 404 ↔ ∃ resource id, told = .error (.notFound resource id)
  resource : ∀ resource id, told = .error (.notFound resource id) →
    response = .ofProblem ((missingProblem resource).withTrace trace)
  forbidden : response.status = 403 ↔ ∃ reason, told = .error (.forbidden reason)
  invalid : response.status = 422 ↔ ∃ message, told = .error (.invalid message)
  internal : response.status = 500 ↔ told = .error .internal

theorem Tells.corresponds {success : Nat} {trace : Option String} {told : Except ClientError α}
    {response : Response} (h : Tells success trace told response) (hsuccess : success < 400) :
    Corresponds success trace told response := by
  have h404 : success ≠ 404 := by omega
  have h403 : success ≠ 403 := by omega
  have h422 : success ≠ 422 := by omega
  have h500 : success ≠ 500 := by omega
  cases h with
  | ok x status => constructor <;> simp [status, h404, h403, h422, h500]
  | notFound resource id =>
    constructor <;> simp [Response.ofProblem, missingProblem, Problem.withTrace, h404.symm]
  | forbidden reason => constructor <;> simp [Response.ofProblem, h403.symm]
  | invalid message status => constructor <;> simp [status, h422.symm]
  | internal => constructor <;> simp [Response.ofProblem, h500.symm]

/-- What was done for a caller inside the process was done for HTTP: both leave the same rows and the
same promises, and the same outside, except that failures are logged for HTTP alone. -/
structure SameEffect (succeeded : Prop) (client http : World σ) : Prop where
  store : http.store.Agree laterCalls client.store
  pending : client.pending = http.pending
  state : client.outside.state = http.outside.state
  outside : succeeded → client.outside = http.outside

/-- An action does the same and is answered alike over HTTP and for a caller inside the process, in
worlds that it cannot tell apart. -/
theorem answering_of_respects (r : Request) {a : Action σ α} {respond : α → Response} {success : Nat}
    {w₁ w₂ : World σ} (ha : Respects (World.Agree laterCalls) a) (hw : World.Agree laterCalls w₁ w₂)
    (hstatus : ∀ x, (respond x).status = success)
    (hknown : ∀ host, (a w₁).1 ≠ .error (.unknownHost host)) :
    Tells success r.trace ((a w₂).1.mapError ServiceError.toClient) (answering r a respond w₁).1 ∧
      SameEffect (∃ x, (a w₂).1.mapError ServiceError.toClient = .ok x) (a w₂).2
        (answering r a respond w₁).2 := by
  obtain ⟨hanswer, hworld⟩ := ha hw
  cases hrun : a w₁ with
  | mk result w₁' =>
    rw [hrun] at hanswer hworld hknown
    rw [hanswer]
    unfold answering
    rw [hrun]
    cases result with
    | ok x =>
      exact ⟨.ok x (hstatus x), hworld.store, hworld.pending, by rw [hworld.outside],
        fun _ => hworld.outside⟩
    | error e =>
      refine ⟨tells_error success r.trace fun host heq => hknown host (by rw [heq]), ?_⟩
      simp only [refused, World.foldl_report]
      exact ⟨hworld.store, hworld.pending, by rw [hworld.outside], fun ⟨x, hx⟩ => by cases hx⟩

/-- The status with which a knock is answered if nothing is refused to it. -/
def knockStatus (t : Tables) (accountId doorId personId : Uuid) : Nat :=
  match t.person? accountId personId with
  | none => 404
  | some person =>
    if ¬ person.IsReachable then 403
    else match t.door? accountId doorId with
      | none => 404
      | some _ => 202

theorem Tells.status_of_verdict (service : Service σ) {t : Tables} {account : Account}
    {doorId personId : Uuid} {response : Response} {trace : Option String}
    (h : Tells 202 trace ((service.verdict t account doorId personId).mapError ServiceError.toClient)
      response) :
    response.status = knockStatus t account.id doorId personId := by
  have hcorresponds := h.corresponds (by decide)
  unfold Service.verdict at hcorresponds
  unfold knockStatus
  cases hperson : t.person? account.id personId with
  | none =>
    simp only [hperson] at hcorresponds ⊢
    exact hcorresponds.notFound.2 ⟨_, _, rfl⟩
  | some person =>
    simp only [hperson] at hcorresponds ⊢
    by_cases hreachable : person.IsReachable
    · simp only [hreachable, not_true_eq_false, if_true, if_false] at hcorresponds ⊢
      cases hdoor : t.door? account.id doorId with
      | none =>
        simp only [hdoor] at hcorresponds ⊢
        exact hcorresponds.notFound.2 ⟨_, _, rfl⟩
      | some door =>
        simp only [hdoor] at hcorresponds ⊢
        refine hcorresponds.ok.2 ?_
        cases Delivery.channels service.providers account person with
        | nil => exact ⟨_, rfl⟩
        | cons channel others => exact ⟨_, rfl⟩
    · simp only [hreachable, not_false_eq_true, if_true, if_false] at hcorresponds ⊢
      exact hcorresponds.forbidden.2 ⟨_, rfl⟩

section Entrances

variable {t : Tables} {account : Account} {w : World σ} (service : Service σ)

/-- The worlds after the account was looked up in either way. -/
theorem agree_of_lookups (w : World σ) :
    World.Agree laterCalls { w with store := w.store.count .findAccountByHost }
      { w with store := w.store.count .findAccount } where
  store := (Store.Agree.count_other _ (by decide)).symm.trans (Store.Agree.count_other _ (by decide))
  outside := rfl
  pending := rfl

/-- A caller inside the process is served once the account is found. -/
theorem client_eq (h : w.store.Serves t account) (a : Account → Action σ α) :
    Client.request (Service.account account.id >>= a) w =
      ((a account { w with store := w.store.count .findAccount }).1.mapError ServiceError.toClient,
        (a account { w with store := w.store.count .findAccount }).2) := by
  unfold Client.request
  rw [bind_of_ok h.account_eq]
  rfl

/-- A knock over HTTP is answered as the same knock by a caller inside the process is. -/
theorem knock_agrees (h : w.store.Serves t account) {r : Request} {doorId personId : Uuid}
    (hr : r.IsOn account) (hmethod : r.method = "POST") (hpath : r.path = "/api/notifications")
    (hbody : r.knock = .ok ⟨doorId, personId⟩) :
    let client := Client.knock service account.id doorId personId w
    let http := respond service r w
    Tells 202 r.trace client.1 http.1 ∧
      SameEffect (∃ outcome, client.1 = .ok outcome) client.2 http.2 := by
  intro client http
  have hclient := client_eq h fun account => service.knock account doorId personId
  have hhttp : http = answering r (service.knock account doorId personId)
      (fun _ => .ofJson 202 (KnockRequest.toJson ⟨doorId, personId⟩))
      { w with store := w.store.count .findAccountByHost } := by
    have hroute : Route.routes.lookup r.path = some (.tenant .knock) := by rw [hpath]; rfl
    simp only [http, respond_of_tenantOf hmethod hroute (tenantOf_eq h hr), serve, hbody]
  simp only [client, Client.knock, hclient, hhttp]
  refine answering_of_respects r (service.respects_knock account doorId personId)
    (agree_of_lookups w) (fun _ => rfl) fun host => ?_
  exact (service.knocked account doorId personId _).ne_unknownHost host

/-- A synchronization over HTTP is answered as the same one for a caller inside the process is. -/
theorem syncPeople_agrees (h : w.store.Serves t account) {r : Request} (hr : r.IsOn account)
    (hmethod : r.method = "POST") (hpath : r.path = "/api/people/sync") :
    let client := Client.syncPeople service account.id w
    let http := respond service r w
    Tells 204 r.trace client.1 http.1 ∧ SameEffect (∃ report, client.1 = .ok report) client.2 http.2 := by
  intro client http
  have hclient := client_eq h service.syncPeople
  have hhttp : http = answering r (service.syncPeople account) (fun _ => .plain 204)
      { w with store := w.store.count .findAccountByHost } := by
    have hroute : Route.routes.lookup r.path = some (.tenant .sync) := by rw [hpath]; rfl
    simp only [http, respond_of_tenantOf hmethod hroute (tenantOf_eq h hr), serve]
  simp only [client, Client.syncPeople, hclient, hhttp]
  refine answering_of_respects r (service.respects_syncPeople account) (agree_of_lookups w)
    (fun _ => rfl) fun host => ?_
  exact service.syncPeople_ne_unknownHost account ((w.store.count_tables _).trans h.tables) h.keyed host

/-- What a knock by a caller inside the process comes to: it promises nothing if it fails, and the
rows decide if nothing is refused to it. -/
theorem client_knock (h : w.store.Serves t account) (doorId personId : Uuid) :
    let client := Client.knock service account.id doorId personId w
    (∃ promised, client.2.pending = w.pending ++ promised ∧
        ((∃ e, client.1 = .error e) → promised = [])) ∧
      (w.store.admits .findPerson = true → w.store.admits .findDoor = true →
        client.1 = (service.verdict t account doorId personId).mapError ServiceError.toClient) := by
  intro client
  have hclient := client_eq h fun account => service.knock account doorId personId
  have hknocked := service.knocked account doorId personId
    { w with store := w.store.count .findAccount }
  simp only [client, Client.knock, hclient]
  cases hrun : service.knock account doorId personId
      { w with store := w.store.count .findAccount } with
  | mk result w' =>
    rw [hrun] at hknocked
    constructor
    · obtain ⟨promised, hpending, hnone⟩ := hknocked.promises
      refine ⟨promised, hpending, fun ⟨e, he⟩ => hnone ?_⟩
      cases result with
      | ok outcome => cases he
      | error e' => exact ⟨e', rfl⟩
    · intro hperson hdoor
      rw [hknocked.result_eq_verdict ((w.store.count_tables _).trans h.tables)]
      · rwa [Store.admits, Store.count_refusals_of_ne _ (by decide)]
      · rwa [Store.admits, Store.count_refusals_of_ne _ (by decide)]

/-- The two ways to ask agree.  A knock over HTTP is answered with the status that corresponds to
what the client is told, both promise the same deliveries and so make the same calls, and neither
promises any if the knock fails; without failures the rows decide, whatever channels are eligible.
A synchronization is answered in the same way and leaves the same rows. -/
theorem http_agrees_with_client (h : w.store.Serves t account) :
    (∀ (r : Request) (doorId personId : Uuid), r.IsOn account → r.method = "POST" →
      r.path = "/api/notifications" → r.knock = .ok ⟨doorId, personId⟩ →
        let client := Client.knock service account.id doorId personId w
        let http := respond service r w
        Corresponds 202 r.trace client.1 http.1 ∧
          SameEffect (∃ outcome, client.1 = .ok outcome) client.2 http.2 ∧
          (∃ promised, client.2.pending = w.pending ++ promised ∧
            ((∃ e, client.1 = .error e) → promised = [])) ∧
          ((∃ outcome, client.1 = .ok outcome) →
            (service.drain client.2).outside = (service.drain http.2).outside) ∧
          (w.store.admits .findPerson = true → w.store.admits .findDoor = true →
            client.1 = (service.verdict t account doorId personId).mapError ServiceError.toClient ∧
              http.1.status = knockStatus t account.id doorId personId)) ∧
      ∀ r : Request, r.IsOn account → r.method = "POST" → r.path = "/api/people/sync" →
        let client := Client.syncPeople service account.id w
        let http := respond service r w
        Corresponds 204 r.trace client.1 http.1 ∧
          SameEffect (∃ report, client.1 = .ok report) client.2 http.2 := by
  constructor
  · intro r doorId personId hr hmethod hpath hbody client http
    obtain ⟨htells, heffect⟩ := knock_agrees service h hr hmethod hpath hbody
    obtain ⟨hpromised, hverdict⟩ := client_knock service h doorId personId
    refine ⟨htells.corresponds (by decide), heffect, hpromised, fun hok => ?_, fun hperson hdoor => ?_⟩
    · simp only [Service.drain, client, http, heffect.pending, heffect.outside hok]
    · have hclient := hverdict hperson hdoor
      have htells : Tells 202 r.trace client.1 http.1 := htells
      rw [show client.1 = _ from hclient] at htells
      exact ⟨hclient, htells.status_of_verdict service⟩
  · intro r hr hmethod hpath client http
    obtain ⟨htells, heffect⟩ := syncPeople_agrees service h hr hmethod hpath
    exact ⟨htells.corresponds (by decide), heffect⟩

/-! ### A knock that is accepted

The account is served on a host name with a port, and the person can be told by one kind of email. -/

/-- An account that sends email. -/
def sampleLobby : Account :=
  ⟨.ofNat 1, "Acme", "acme", "", "", { (default : NotificationSettings) with mailgun := .on }, default⟩

/-- A person and a door of the account. -/
def sampleLobbyTables : Tables where
  accounts := [sampleLobby]
  people := [⟨.ofNat 11, .ofNat 1, "Ann", "", "ann", "", true, true, .all⟩]
  doors := [⟨.ofNat 31, .ofNat 1, "Front"⟩]
  links := []

/-- A world with these rows. -/
def sampleLobbyWorld : World Unit := ⟨.new (some sampleLobbyTables) .ofNat, ⟨(), []⟩, []⟩

/-- A service that can notify on any channel. -/
def sampleDesk : Service Unit where
  providers :=
    ⟨fun channel _ => some ⟨channel, fun _ _ => pure (), fun _ _ => pure ()⟩, fun _ _ => pure []⟩
  settings := .standard

/-- A knock at the door for the person. -/
def sampleKnock : Request where
  method := "POST"
  target := "/api/notifications"
  headers := [("host", "acme.doorbot.test:8080"), ("content-type", "application/json")]
  body := ("\x7b\"notification\":\x7b\"door_id\":\"00000000-0000-0000-0000-00000000001f\"," ++
    "\"person_id\":\"00000000-0000-0000-0000-00000000000b\"\x7d\x7d").toList.map fun c =>
      UInt8.ofNat c.toNat

theorem sample_serves : sampleLobbyWorld.store.Serves sampleLobbyTables sampleLobby where
  tables := rfl
  keyed := ⟨by decide, by decide, by decide, by decide, by decide, by decide⟩
  account := by decide
  byId := rfl
  byHost := rfl

theorem sampleKnock_isOn : sampleKnock.IsOn sampleLobby where
  named := by decide
  label := by decide
  header := ⟨"doorbot.test:8080", by decide +kernel, by decide, by decide⟩

theorem http_agrees_with_client_sample :
    (Client.knock sampleDesk sampleLobby.id (.ofNat 31) (.ofNat 11) sampleLobbyWorld).1 =
        .ok (.accepted [.mailgun]) ∧
      (respond sampleDesk sampleKnock sampleLobbyWorld).1.status = 202 := by
  obtain ⟨hknock, -⟩ := http_agrees_with_client sampleDesk sample_serves
  obtain ⟨-, -, -, -, hdecided⟩ := hknock sampleKnock (.ofNat 31) (.ofNat 11) sampleKnock_isOn rfl
    (by decide) (by decide +kernel)
  obtain ⟨hclient, hstatus⟩ := hdecided rfl rfl
  have hverdict : sampleDesk.verdict sampleLobbyTables sampleLobby (.ofNat 31) (.ofNat 11) =
      .ok (.accepted [.mailgun]) := by decide
  rw [hverdict] at hclient
  exact ⟨hclient, hstatus.trans (by decide)⟩

end Entrances

end Api

end Concierge
