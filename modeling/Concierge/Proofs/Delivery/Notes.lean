import Concierge.Http.Providers
import Concierge.Proofs.Delivery.Promised

/-!
# Calls of notifiers

Every call of a notifier is noted outside, before anything is known of how it ends.  The notes are kept
by the notifiers themselves, so a call is noted whoever makes it, and whatever else happens outside
does not touch them.  Nothing that is asked of the service depends on them.
-/

namespace Concierge

open Fallible

variable {σ α : Type}

/-- A call of a notifier. -/
inductive NotifierCall where
  | knock (channel : Channel) (door : Door) (person : Person)
  | welcome (channel : Channel) (person : Person) (password : String)
  deriving DecidableEq, Repr

/-- What is outside, and the calls of notifiers so far. -/
structure Noted (σ : Type) where
  state : σ
  calls : List NotifierCall

namespace Outside

/-- What is outside, without the notes. -/
def unnoted (o : Outside (Noted σ)) : Outside σ := ⟨o.state.state, o.log⟩

/-- Note a call. -/
def note (call : NotifierCall) (o : Outside (Noted σ)) : Outside (Noted σ) :=
  { o with state := { o.state with calls := o.state.calls ++ [call] } }

/-- Something happens outside, and the notes stay. -/
def beside (change : Outside σ → α × Outside σ) (o : Outside (Noted σ)) : α × Outside (Noted σ) :=
  let (result, o') := change o.unnoted
  (result, ⟨⟨o'.state, o.state.calls⟩, o'.log⟩)

theorem foldl_report_calls (events : List Event) (o : Outside (Noted σ)) :
    (events.foldl report o).state.calls = o.state.calls := by
  induction events generalizing o with
  | nil => rfl
  | cons e rest ih => exact ih (o.report e)

theorem foldl_report_unnoted (events : List Event) (o : Outside (Noted σ)) :
    (events.foldl report o).unnoted = events.foldl report o.unnoted := by
  induction events generalizing o with
  | nil => rfl
  | cons e rest ih => exact ih (o.report e)

end Outside

/-- The notifier, noting each call. -/
def Notifier.noting (n : Notifier σ) : Notifier (Noted σ) where
  channel := n.channel
  knock door person o := (o.note (.knock n.channel door person)).beside (n.knock door person)
  welcome person password o :=
    (o.note (.welcome n.channel person password)).beside (n.welcome person password)

/-- The providers, with notifiers that note each call. -/
def Providers.noting (p : Providers σ) : Providers (Noted σ) where
  notifier? channel account := (p.notifier? channel account).map Notifier.noting
  users account bridge := Outside.beside (p.users account bridge)

/-- The service, with notifiers that note each call. -/
def Service.noting (service : Service σ) : Service (Noted σ) :=
  ⟨service.providers.noting, service.settings⟩

/-- A limit on an attempt makes no difference to the notes. -/
theorem Attempt.within_beside (limitMs : Nat) (attempt : Attempt σ α) :
    Attempt.within limitMs (Outside.beside attempt : Attempt (Noted σ) α) =
      Outside.beside (attempt.within limitMs) := by
  funext o
  simp only [Attempt.within, Outside.beside]
  rcases attempt o.unnoted with ⟨stop | x, outside⟩
  · cases hends : stop.endsWithin limitMs <;> simp [hends]
  · rfl

/-- A knock that is noted is tried within a limit as it is without a note. -/
theorem Notifier.noting_knock_within (n : Notifier σ) (limitMs : Nat) (door : Door) (person : Person)
    (o : Outside (Noted σ)) :
    (n.noting.knock door person).within limitMs o =
      (o.note (.knock n.channel door person)).beside ((n.knock door person).within limitMs) :=
  congrFun (Attempt.within_beside limitMs (n.knock door person)) _

theorem Service.noting_fetching (service : Service σ) :
    service.noting.fetching = service.fetching.noting := by
  simp only [fetching, noting, Providers.within, Providers.noting, Attempt.within_beside]

/-- Directories are no notifiers. -/
theorem Providers.noting_spares (p : Providers σ) : p.noting.Spares Noted.calls := fun _ _ _ => rfl

/-! ## Notes make no difference

What is asked of the service is answered as if nothing were noted, and leaves the same rows and
promises. -/

/-- The world without the notes. -/
def World.unnoted (w : World (Noted σ)) : World σ := ⟨w.store, w.outside.unnoted, w.pending⟩

namespace Action

theorem query_simulates (q : Query α) : Simulates World.unnoted (query q : Action (Noted σ) α) (query q) :=
  fun _ => rfl

theorem report_simulates (e : Event) :
    Simulates World.unnoted (report e : Action (Noted σ) Unit) (report e) := fun _ => rfl

theorem promise_simulates (d : Delivery) :
    Simulates World.unnoted (promise d : Action (Noted σ) Unit) (promise d) := fun _ => rfl

end Action

namespace Sync

theorem fetch_simulates (p : Providers σ) (account : Account) (bridge : Bridge) :
    Simulates World.unnoted (fetch p.noting account bridge) (fetch p account bridge) := by
  intro w
  simp only [fetch, Providers.noting, Outside.beside, World.unnoted]
  cases p.users account bridge w.outside.unnoted with
  | mk result outside =>
    rcases result with (e | ⟨e, last⟩) | users
    · rfl
    · rfl
    · simp only
      cases Query.findLinks account.id bridge w.store with
      | mk found store => cases found <;> rfl

theorem fetchAll_simulates (p : Providers σ) (account : Account) (bridges : List Bridge) :
    Simulates World.unnoted (fetchAll p.noting account bridges) (fetchAll p account bridges) := by
  induction bridges with
  | nil => exact simulates_const _
  | cons bridge rest ih =>
    exact (fetch_simulates p account bridge).andThen fun found =>
      ih.andThen (f := fun others w => ((bridge, found) :: others, w))
        (g := fun others w => ((bridge, found) :: others, w)) fun _ => simulates_const _

theorem conclude_simulates (key : MatchKey) (accountId : Uuid)
    (fetched : List (Bridge × Option Contribution)) :
    Simulates World.unnoted (conclude key accountId fetched : Action (Noted σ) SyncReport)
      (conclude key accountId fetched) := by
  intro w
  simp only [conclude, World.unnoted]
  cases commit key accountId fetched w.store with
  | mk result store => cases result <;> rfl

theorem run_simulates (key : MatchKey) (bridges : List Bridge) (p : Providers σ) (account : Account) :
    Simulates World.unnoted (run key bridges p.noting account) (run key bridges p account) :=
  (fetchAll_simulates p account bridges).andThen (f := conclude key account.id)
    (g := conclude key account.id) fun _ => conclude_simulates _ _ _

end Sync

namespace Service

variable (service : Service σ)

theorem account_simulates (id : Uuid) :
    Simulates World.unnoted (account id : Action (Noted σ) Account) (account id) := by
  refine simulates_bind (Action.query_simulates _) fun found => ?_
  cases found <;> exact simulates_const _

theorem accountByHost_simulates (host : String) :
    Simulates World.unnoted (accountByHost host : Action (Noted σ) Account) (accountByHost host) := by
  refine simulates_bind (Action.query_simulates _) fun found => ?_
  cases found <;> exact simulates_const _

theorem person_simulates (account : Account) (id : Uuid) :
    Simulates World.unnoted (person account id : Action (Noted σ) Person) (person account id) := by
  refine simulates_bind (Action.query_simulates _) fun found => ?_
  cases found <;> exact simulates_const _

theorem door_simulates (account : Account) (id : Uuid) :
    Simulates World.unnoted (door account id : Action (Noted σ) Door) (door account id) := by
  refine simulates_bind (Action.query_simulates _) fun found => ?_
  cases found <;> exact simulates_const _

theorem dispatch_simulates (account : Account) (door : Door) (person : Person) :
    Simulates World.unnoted (service.noting.dispatch account door person)
      (service.dispatch account door person) := by
  have hcandidates : Delivery.candidates service.noting.providers account person =
      (Delivery.candidates service.providers account person).map Notifier.noting := by
    simp only [Delivery.candidates, noting, Providers.noting, List.map_filterMap]
  unfold dispatch
  rw [hcandidates]
  cases Delivery.candidates service.providers account person with
  | nil => exact simulates_bind (Action.report_simulates _) fun _ => simulates_const _
  | cons candidate others =>
    have hchannels : ((candidate :: others).map Notifier.noting).map (·.channel) =
        (candidate :: others).map (·.channel) := by
      rw [List.map_map]
      rfl
    rw [List.map_cons] at hchannels ⊢
    simp only [hchannels]
    exact simulates_bind (Action.promise_simulates _) fun _ => simulates_const _

theorem knock_simulates (account : Account) (doorId personId : Uuid) :
    Simulates World.unnoted (service.noting.knock account doorId personId)
      (service.knock account doorId personId) := by
  refine simulates_bind (person_simulates account personId) fun person => ?_
  by_cases hreachable : person.isVisible = true ∧ person.isAvailable = true
  · simp only [hreachable, and_self, not_true_eq_false, if_false]
    exact simulates_bind (door_simulates account doorId) fun door =>
      service.dispatch_simulates account door person
  · simp only [hreachable, not_false_eq_true, if_true]
    exact simulates_const _

theorem syncPeople_simulates (account : Account) :
    Simulates World.unnoted (service.noting.syncPeople account) (service.syncPeople account) := by
  unfold syncPeople
  rw [service.noting_fetching]
  exact Sync.run_simulates _ _ service.fetching account

theorem accountCreated_simulates (account : Account) (personId : Uuid) (password : String) :
    Simulates World.unnoted (service.noting.accountCreated account personId password)
      (service.accountCreated account personId password) := by
  have hnotifier : Delivery.welcomeNotifier? service.noting.providers account =
      (Delivery.welcomeNotifier? service.providers account).map Notifier.noting := by
    simp only [Delivery.welcomeNotifier?, noting, Providers.noting, List.map_findSome?, Function.comp_def]
  refine simulates_bind (person_simulates account personId) fun person => ?_
  rw [hnotifier]
  cases Delivery.welcomeNotifier? service.providers account with
  | none => exact simulates_bind (Action.report_simulates _) fun _ => simulates_const _
  | some notifier => exact simulates_bind (Action.promise_simulates _) fun _ => simulates_const _

end Service

namespace Client

variable (service : Service σ)

theorem request_simulates {a : Action (Noted σ) α} {b : Action σ α}
    (h : Simulates World.unnoted a b) : Simulates World.unnoted (request a) (request b) :=
  h.map fun result => result.mapError ServiceError.toClient

theorem knock_simulates (accountId doorId personId : Uuid) :
    Simulates World.unnoted (knock service.noting accountId doorId personId)
      (knock service accountId doorId personId) :=
  request_simulates (simulates_bind (Service.account_simulates accountId) fun account =>
    service.knock_simulates account doorId personId)

theorem syncPeople_simulates (accountId : Uuid) :
    Simulates World.unnoted (syncPeople service.noting accountId) (syncPeople service accountId) :=
  request_simulates (simulates_bind (Service.account_simulates accountId) fun account =>
    service.syncPeople_simulates account)

theorem accountCreated_simulates (accountId personId : Uuid) (password : String) :
    Simulates World.unnoted (accountCreated service.noting accountId personId password)
      (accountCreated service accountId personId password) :=
  request_simulates (simulates_bind (Service.account_simulates accountId) fun account =>
    simulates_bind (service.accountCreated_simulates account personId password) fun _ =>
      simulates_const _)

end Client

namespace Api

theorem refused_simulates (r : Request) (e : ServiceError) :
    Simulates World.unnoted (refused r e : World (Noted σ) → Response × World (Noted σ))
      (refused r e) := by
  intro w
  simp only [refused, World.foldl_report]
  rfl

theorem answering_simulates (r : Request) {a : Action (Noted σ) α} {b : Action σ α}
    (h : Simulates World.unnoted a b) (respond : α → Response) :
    Simulates World.unnoted (answering r a respond) (answering r b respond) := by
  intro w
  simp only [answering, h w]
  cases a w with
  | mk result w' =>
    cases result with
    | ok x => rfl
    | error e => exact refused_simulates r e w'

variable (service : Service σ)

theorem serve_simulates (endpoint : Endpoint) (account : Account) (r : Request) :
    Simulates World.unnoted (serve service.noting endpoint account r)
      (serve service endpoint account r) := by
  cases endpoint with
  | sync => exact answering_simulates r (service.syncPeople_simulates account) _
  | knock =>
    cases hknock : r.knock with
    | error fault =>
      intro w
      simp only [serve, hknock]
    | ok knock =>
      intro w
      simp only [serve, hknock]
      exact answering_simulates r (service.knock_simulates account _ _) _ w

theorem tenantOf_simulates (r : Request) :
    Simulates World.unnoted
      (tenantOf r : World (Noted σ) → Except Response Account × World (Noted σ)) (tenantOf r) := by
  intro w
  unfold tenantOf
  cases Tenant.label? r.host with
  | none => rfl
  | some label =>
    have haccount := Service.accountByHost_simulates label w
    simp only [haccount]
    cases Service.accountByHost label w with
    | mk result w' =>
      cases result with
      | ok account => rfl
      | error e =>
        have hrefused := refused_simulates r e w'
        simp only [hrefused]

theorem respond_simulates (r : Request) :
    Simulates World.unnoted (respond service.noting r) (respond service r) := by
  intro w
  unfold respond
  cases Route.routes.lookup r.path with
  | none => rfl
  | some route =>
    cases route with
    | health => rfl
    | tenant endpoint =>
      have htenant := tenantOf_simulates r w
      simp only [respondOn, htenant]
      cases tenantOf r w with
      | mk result w' =>
        cases result with
        | error response => rfl
        | ok account =>
          have hserve := serve_simulates service endpoint account r w'
          simp only [hserve]
          cases (Route.tenant endpoint).methods.contains r.method <;> rfl

end Api

/-- Every operation is carried out as if nothing were noted. -/
theorem Operation.perform_simulates (service : Service σ) (accountId : Uuid) (op : Operation) :
    Simulates World.unnoted (op.perform service.noting accountId) (op.perform service accountId) := by
  cases op with
  | request r => exact (Api.respond_simulates service r).map Outcome.response
  | knock doorId personId =>
    exact (Client.knock_simulates service accountId doorId personId).map Outcome.knock
  | syncPeople => exact (Client.syncPeople_simulates service accountId).map Outcome.syncPeople
  | accountCreated personId password =>
    exact (Client.accountCreated_simulates service accountId personId password).map
      Outcome.accountCreated

/-! ## Channels -/

/-- The notifier for a channel says that it is for that channel. -/
def Providers.Labelled (p : Providers σ) : Prop :=
  ∀ channel account notifier, p.notifier? channel account = some notifier →
    notifier.channel = channel

theorem Providers.Labelled.noting {p : Providers σ} (h : p.Labelled) : p.noting.Labelled := by
  intro channel account notifier hnotifier
  obtain ⟨plain, hplain, rfl⟩ := Option.map_eq_some_iff.1 hnotifier
  exact h channel account plain hplain

/-- All notifiers on the network say so. -/
theorem ProviderSettings.providers_labelled (p : ProviderSettings) : p.providers.Labelled := by
  intro channel account notifier h
  simp only [providers, notifier?] at h
  cases channel <;>
    simp only [Option.bind_eq_bind, Option.bind_eq_some_iff, Option.pure_def, Option.some.injEq] at h
  all_goals grind [HipChat.notifier, Slack.notifier, Nexmo.notifier, Twilio.notifier,
    Mailgun.notifier, Postmark.notifier]

namespace Delivery

variable {p : Providers σ}

/-- The channels of a knock are those eligible channels for which there is a notifier. -/
theorem channels_eq_filter (h : p.Labelled) (account : Account) (person : Person) :
    channels p account person =
      (account.notifications.eligible person).filter fun c => (p.notifier? c account).isSome := by
  unfold channels candidates
  induction account.notifications.eligible person with
  | nil => rfl
  | cons c rest ih =>
    cases hnotifier : p.notifier? c account with
    | none => simp [hnotifier, ih]
    | some notifier => simp [hnotifier, ih, h c account notifier hnotifier]

/-- No channel is tried twice for a knock. -/
theorem channels_nodup (h : p.Labelled) (account : Account) (person : Person) :
    (channels p account person).Nodup := by
  rw [channels_eq_filter h]
  exact ((show Channel.all.Nodup by decide).filter _).filter _

/-- There is one notifier for each channel of a knock, in order. -/
theorem notifiers_channels (h : p.Labelled) (account : Account) (person : Person) :
    ((channels p account person).filterMap fun c => p.notifier? c account).map (·.channel) =
      channels p account person := by
  rw [channels_eq_filter h]
  induction account.notifications.eligible person with
  | nil => rfl
  | cons c rest ih =>
    cases hnotifier : p.notifier? c account with
    | none => simp [hnotifier, ih]
    | some notifier => simp [hnotifier, ih, h c account notifier hnotifier]

/-- The message for a new account goes out by Postmark, or else by Mailgun. -/
theorem welcomeNotifier?_channel (h : p.Labelled) {account : Account} {notifier : Notifier σ}
    (hsome : welcomeNotifier? p account = some notifier) :
    notifier.channel =
      if (p.notifier? .postmark account).isSome then .postmark else .mailgun := by
  simp only [welcomeNotifier?, welcomeChannels, List.findSome?_cons, List.findSome?_nil] at hsome
  cases hpostmark : p.notifier? .postmark account with
  | some first =>
    rw [hpostmark] at hsome
    cases hsome
    exact h _ _ _ hpostmark
  | none =>
    rw [hpostmark] at hsome
    cases hmailgun : p.notifier? .mailgun account with
    | some second =>
      simp only [hmailgun] at hsome
      cases hsome
      exact h _ _ _ hmailgun
    | none =>
      simp only [hmailgun] at hsome
      cases hsome

end Delivery

end Concierge
