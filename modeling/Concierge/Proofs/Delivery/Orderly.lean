import Concierge.Proofs.Delivery.Shift

/-!
# Deliveries are orderly

Whatever is asked of the service, whatever happens to its rows and outside, and in whatever order the
deliveries take their steps: every call of a notifier has a reason, no knock is delivered twice, a
message for a new account is sent once at most, and who waits for the deliveries does not go on before
they are over.
-/

namespace Concierge

variable {σ : Type}

/-- A request was a knock that the service accepted, for a person and at a door of the account. -/
structure AcceptedKnock (service : Service σ) (ask : Ask σ) (account : Account) (door : Door)
    (person : Person) (channels : List Channel) : Prop where
  accepted : ∃ k, ask.knocking? = some k ∧ k.account = account ∧ k.doorId = door.id ∧
    k.personId = person.id ∧ (k.make service).1 = .ok (.accepted channels)
  rows : ∃ t, ask.before.store.tables = some t ∧ account ∈ t.accounts ∧
    (person ∈ t.people ∧ person.accountId = account.id) ∧ door ∈ t.doors ∧ door.accountId = account.id
  reachable : person.IsReachable

/-- A call sends a password to a person of the account of a request, by Postmark if that is possible
and else by Mailgun. -/
def WelcomeCall (service : Service σ) (ask : Ask σ) (personId : Uuid) (password : String)
    (a : AnsweredCall) : Prop :=
  ∃ t account person, ask.before.store.tables = some t ∧ account ∈ t.accounts ∧
    account.id = ask.accountId ∧ t.person? account.id personId = some person ∧
    a.call = .welcome
      (if (service.providers.notifier? .postmark account).isSome then .postmark else .mailgun)
      person password

/-- Calls are made on channels in turn, up to the first success. -/
structure InTurn (channels : List Channel) (call : Channel → NotifierCall) (calls : List AnsweredCall)
    (finished : Prop) : Prop where
  distinct : channels.Nodup
  called : calls.map (·.call) <+: channels.map call
  failed : ∀ a ∈ calls.dropLast, ¬ a.Succeeded
  once : (calls.filter (·.Succeeded)).length ≤ 1
  complete : finished → calls.length = channels.length ∨ ∃ a, calls.getLast? = some a ∧ a.Succeeded

/-- The deliveries are orderly. -/
structure Orderly (service : Service σ) (s : Shift σ) : Prop where
  /-- No notifier is called but by a delivery. -/
  noted : s.world.outside.state.calls = s.made.map (·.2.call)
  /-- Somebody is only told of a knock that was accepted. -/
  justified : ∀ j a channel door person, (j, a) ∈ s.made → a.call = .knock channel door person →
    ∃ ask account channels, s.asks[j]? = some ask ∧
      AcceptedKnock service ask account door person channels ∧ channel ∈ channels
  /-- An accepted knock is delivered on the channels that it answered with, in turn. -/
  delivered : ∀ j ask k channels, s.asks[j]? = some ask → ask.knocking? = some k →
    (k.make service).1 = .ok (.accepted channels) →
    ∃ door person, AcceptedKnock service ask k.account door person channels ∧
      (∃ task ∈ s.tasks, task.ask = j) ∧
      InTurn channels (.knock · door person) (callsOf s.made j) (s.IsOver j)
  /-- Nobody is called for anything else but the message for a new account. -/
  silent : ∀ j ask, s.asks[j]? = some ask →
    (∀ personId password, ask.op ≠ .accountCreated personId password) →
    (∀ k channels, ask.knocking? = some k → (k.make service).1 ≠ .ok (.accepted channels)) →
    callsOf s.made j = []
  /-- That message is sent once at most, by Postmark if possible and else by Mailgun. -/
  welcomed : ∀ j ask personId password, s.asks[j]? = some ask →
    ask.op = .accountCreated personId password →
    (callsOf s.made j).length ≤ 1 ∧
      ∀ a ∈ callsOf s.made j, WelcomeCall service ask personId password a
  /-- Who waited for the deliveries goes on after all that were promised before. -/
  drained : ∀ drain ∈ s.drains, drain.wait = .returned → ∀ task ∈ s.tasks,
    task.ask < drain.asked → task.stage.isEnded = true

/-! ## Reasons of deliveries -/

theorem Ask.Promises.acceptedKnock {service : Service σ} {ask : Ask σ} {account : Account}
    {door : Door} {person : Person} {channels : List Channel}
    (h : ask.Promises service (.knock account door person channels)) :
    AcceptedKnock service ask account door person channels ∧
      channels = Delivery.channels service.providers account person := by
  obtain ⟨accountId, op, before⟩ := ask
  unfold Ask.Promises at h
  cases h with
  | knock made promises =>
    obtain ⟨t, hadmits⟩ := Operation.knocking?_admits made
    cases promises with
    | accepted accepted tables found reachable entry channels_eq =>
      obtain rfl := Option.some.inj (hadmits.after.symm.trans tables)
      obtain ⟨hperson, hpersonId, hpersonAccount⟩ := Tables.mem_of_person? found
      obtain ⟨hdoor, hdoorId, hdoorAccount⟩ := Tables.mem_of_door? entry
      exact ⟨⟨⟨_, made, rfl, hdoorId.symm, hpersonId.symm, accepted⟩,
        ⟨t, hadmits.before, hadmits.account, ⟨hperson, hpersonAccount⟩, hdoor, hdoorAccount⟩,
        reachable⟩, channels_eq⟩

theorem Ask.Promises.welcome {service : Service σ} (hlabelled : service.providers.Labelled)
    {ask : Ask σ} {account : Account} {person : Person} {password : String} {channel : Channel}
    (h : ask.Promises service (.welcome account person password channel)) :
    ∃ t personId, ask.op = .accountCreated personId password ∧
      ask.before.store.tables = some t ∧ account ∈ t.accounts ∧ account.id = ask.accountId ∧
      t.person? account.id personId = some person ∧
      channel =
        if (service.providers.notifier? .postmark account).isSome then .postmark else .mailgun := by
  obtain ⟨accountId, op, before⟩ := ask
  unfold Ask.Promises at h
  generalize hd : Delivery.welcome account person password channel = d at h
  cases h with
  | knock made promises =>
    cases promises with
    | accepted => cases hd
  | welcome found tables addressee sent some =>
    cases hd
    obtain ⟨t, hadmits, hid⟩ := Service.account_admits found
    obtain rfl := Option.some.inj (hadmits.after.symm.trans tables)
    refine ⟨t, _, rfl, hadmits.before, hadmits.account, hid, addressee, ?_⟩
    rw [Delivery.welcomeNotifier?_channel hlabelled some]

/-- At most one call succeeds if all but the last one failed. -/
theorem length_succeeded_le_one {calls : List AnsweredCall}
    (h : ∀ a ∈ calls.dropLast, ¬ a.Succeeded) : (calls.filter (·.Succeeded)).length ≤ 1 := by
  rcases calls.eq_nil_or_concat with rfl | ⟨before, last, rfl⟩
  · exact Nat.zero_le 1
  · rw [List.concat_eq_append] at h ⊢
    rw [List.dropLast_concat] at h
    have hbefore : before.filter (·.Succeeded) = [] := by simpa [List.filter_eq_nil_iff] using h
    rw [List.filter_append, hbefore, List.nil_append]
    exact List.length_filter_le _ _

namespace Shift.Sound

variable {service : Service σ} {s : Shift σ}

/-- Every call was made by the one delivery for its request. -/
theorem exists_task (h : Sound service s) {j : Nat} {a : AnsweredCall} (ha : (j, a) ∈ s.made) :
    ∃ (task : Task σ) (ask : Ask σ), s.asks[j]? = some ask ∧ ask.Promises service task.delivery ∧
      Course task.delivery (task.delivery.notifiers service.providers.noting) (callsOf s.made j)
        task.stage := by
  obtain ⟨task, htask, rfl⟩ := List.mem_map.1 (h.owned j a ha)
  obtain ⟨ask, hask, hpromises⟩ :=
    h.ledger.grounded task.ask task.delivery (List.mem_map.2 ⟨task, htask, rfl⟩)
  obtain ⟨i, hi⟩ := List.getElem?_of_mem htask
  exact ⟨task, ask, hask, hpromises, h.course i task hi⟩

/-- The calls of an accepted knock. -/
theorem inTurn (h : Sound service s) (hlabelled : service.providers.Labelled) {j : Nat} {ask : Ask σ}
    {account : Account} {door : Door} {person : Person} {channels : List Channel}
    (hask : s.asks[j]? = some ask)
    (hpromises : ask.Promises service (.knock account door person channels)) :
    InTurn channels (.knock · door person) (callsOf s.made j) (s.IsOver j) := by
  obtain ⟨task, htask, hpromise⟩ := List.mem_map.1 (h.ledger.kept j ask _ hask hpromises)
  obtain ⟨rfl, hdelivery⟩ := Prod.mk.inj hpromise
  obtain ⟨i, hi⟩ := List.getElem?_of_mem htask
  have hcourse := h.course i task hi
  have hchannels := hpromises.acceptedKnock.2
  have hnotifiers : (task.delivery.notifiers service.providers.noting).map (·.channel) = channels := by
    rw [Delivery.notifiers_noting, List.map_map, hdelivery, hchannels]
    exact Delivery.notifiers_channels hlabelled account person
  refine ⟨?_, ?_, hcourse.failed, length_succeeded_le_one hcourse.failed, fun hover => ?_⟩
  · rw [hchannels]
    exact Delivery.channels_nodup hlabelled account person
  · have hcalled := hcourse.called_prefix
    rw [hdelivery] at hcalled hnotifiers
    rwa [← hnotifiers, List.map_map]
  · obtain ⟨other, hother, hsame, hended⟩ := hover
    obtain ⟨k, hk⟩ := List.getElem?_of_mem hother
    obtain rfl := h.index_inj hi hk hsame.symm
    obtain rfl := Option.some.inj (hi.symm.trans hk)
    rw [← hnotifiers, List.length_map]
    exact hcourse.complete hended hdelivery

/-- A knock that somebody is told of was accepted. -/
theorem justified (h : Sound service s) (hlabelled : service.providers.Labelled) {j : Nat}
    {a : AnsweredCall} {channel : Channel} {door : Door} {person : Person} (ha : (j, a) ∈ s.made)
    (hcall : a.call = .knock channel door person) :
    ∃ ask account channels, s.asks[j]? = some ask ∧
      AcceptedKnock service ask account door person channels ∧ channel ∈ channels := by
  obtain ⟨task, ask, hask, hpromises, hcourse⟩ := h.exists_task ha
  have hmem : a.call ∈ (callsOf s.made j).map (·.call) :=
    List.mem_map_of_mem (mem_callsOf.2 ha)
  obtain ⟨n, -, hn⟩ := List.mem_map.1 (hcourse.called_prefix.subset hmem)
  rw [hcall] at hn
  cases hdelivery : task.delivery with
  | knock account door' person' channels =>
    rw [hdelivery] at hn hpromises
    cases hn
    refine ⟨ask, account, channels, hask, hpromises.acceptedKnock.1, ?_⟩
    obtain ⟨channel, hchannel, heq⟩ := List.mem_map.1
      ((h.inTurn hlabelled hask hpromises).called.subset hmem)
    rw [hcall] at heq
    cases heq
    exact hchannel
  | welcome account person' password channel =>
    rw [hdelivery] at hn
    cases hn

/-- A request without an accepted knock calls nobody, unless it is for the message for a new
account. -/
theorem silent (h : Sound service s) {j : Nat} {ask : Ask σ} (hask : s.asks[j]? = some ask)
    (hop : ∀ personId password, ask.op ≠ .accountCreated personId password)
    (hrefused : ∀ k channels, ask.knocking? = some k →
      (k.make service).1 ≠ .ok (.accepted channels)) : callsOf s.made j = [] := by
  rw [List.eq_nil_iff_forall_not_mem]
  intro a ha
  obtain ⟨task, ask', hask', hpromises, -⟩ := h.exists_task (mem_callsOf.1 ha)
  obtain rfl := Option.some.inj (hask.symm.trans hask')
  obtain ⟨accountId, op, before⟩ := ask
  obtain ⟨number, delivery, stage⟩ := task
  unfold Ask.Promises at hpromises
  cases hpromises with
  | knock made promises =>
    cases promises with
    | accepted accepted => exact hrefused _ _ made accepted
  | welcome => exact hop _ _ rfl

/-- The message for a new account is sent once at most. -/
theorem welcomed (h : Sound service s) (hlabelled : service.providers.Labelled) {j : Nat}
    {ask : Ask σ} {personId : Uuid} {password : String} (hask : s.asks[j]? = some ask)
    (hop : ask.op = .accountCreated personId password) :
    (callsOf s.made j).length ≤ 1 ∧
      ∀ a ∈ callsOf s.made j, WelcomeCall service ask personId password a := by
  cases hcalls : callsOf s.made j with
  | nil => exact ⟨Nat.zero_le 1, fun a ha => by cases ha⟩
  | cons first others =>
    have hfirst : (j, first) ∈ s.made := mem_callsOf.1 (hcalls ▸ List.mem_cons_self)
    obtain ⟨task, ask', hask', hpromises, hcourse⟩ := h.exists_task hfirst
    obtain rfl := Option.some.inj (hask.symm.trans hask')
    have hcalled := hcourse.called_prefix
    rw [hcalls] at hcalled
    cases hdelivery : task.delivery with
    | knock account door person channels =>
      obtain ⟨k, hk, -⟩ := (hdelivery ▸ hpromises).acceptedKnock.1.accepted
      rw [Ask.knocking?, hop] at hk
      cases hk
    | welcome account person password' channel =>
      rw [hdelivery] at hpromises hcalled
      obtain ⟨t, personId', hop', htables, haccount, hid, hperson, hchannel⟩ :=
        hpromises.welcome hlabelled
      cases hop.symm.trans hop'
      constructor
      · have hlength := hcalled.length_le
        rw [List.length_map, List.length_map] at hlength
        exact Nat.le_trans hlength Option.length_toList_le
      · intro a ha
        obtain ⟨n, hn, hcall⟩ := List.mem_map.1 (hcalled.subset (List.mem_map_of_mem ha))
        have hlabel := hlabelled.noting _ _ _ (Option.mem_toList.1 hn)
        refine ⟨t, account, person, htables, haccount, hid, hperson, ?_⟩
        rw [← hchannel, ← hlabel, ← hcall]
        rfl

end Shift.Sound

/-- The deliveries are orderly after every course of events: requests over HTTP and of callers inside
the process, edits of rows, storage failures, anything that notifiers and directories may do, steps of
the deliveries in any order, and any number of those who wait for them. -/
theorem deliveries_orderly (service : Service σ) (hlabelled : service.providers.Labelled)
    (store : Store) (outside : Outside σ) (turns : List (Turn σ)) :
    Orderly service ((Shift.start store outside).run service turns) := by
  have hsound := (Shift.Sound.start service store outside).run turns
  generalize (Shift.start store outside).run service turns = s at hsound
  refine ⟨hsound.noted, fun j a channel door person => hsound.justified hlabelled,
    fun j ask k channels hask hknocking haccepted => ?_, fun j ask => hsound.silent,
    fun j ask personId password => hsound.welcomed hlabelled, fun drain hdrain hreturned => ?_⟩
  · obtain ⟨door, person, hpromises⟩ := k.promises_of_accepted service haccepted
    have hask' : ask.Promises service (.knock k.account door person channels) :=
      .knock hknocking hpromises
    obtain ⟨task, htask, hpromise⟩ := List.mem_map.1 (hsound.ledger.kept j ask _ hask hask')
    exact ⟨door, person, hask'.acceptedKnock.1, ⟨task, htask, (Prod.mk.inj hpromise).1⟩,
      hsound.inTurn hlabelled hask hask'⟩
  · exact hsound.honest drain hdrain (by rw [hreturned]; decide)

/-! ### A knock that is delivered on its second channel

The first channel does not answer in time.  Meanwhile the person becomes unavailable, which does not
stop the delivery, and somebody waits for it to end. -/

/-- An account that uses two kinds of chat. -/
def sampleOffice : Account :=
  ⟨.ofNat 1, "Acme", "acme", "", "",
    { (default : NotificationSettings) with hipchat := .on, slack := .on }, default⟩

/-- A person of the account. -/
def sampleHost : Person := ⟨.ofNat 11, .ofNat 1, "Ann", "", "ann", "", true, true, .all⟩

/-- A door of the account. -/
def sampleGate : Door := ⟨.ofNat 31, .ofNat 1, "Front"⟩

/-- A service whose first channel stalls. -/
def sampleBell : Service Unit where
  providers := ⟨fun channel _ => some ⟨channel,
    fun _ _ => if channel = .hipchat then throw (.stalled .timeout []) else pure (),
    fun _ _ => pure ()⟩, fun _ _ => pure []⟩
  settings := .standard

/-- The knock and what happens after it. -/
def sampleTurns : List (Turn Unit) :=
  [.ask (.ofNat 1) (.knock (.ofNat 31) (.ofNat 11)), .drain, .advance 0,
    .edit fun s => { s with tables := some ⟨[sampleOffice],
      [{ sampleHost with isAvailable := false }], [sampleGate], []⟩ },
    .resume 0, .advance 0, .advance 0, .advance 0, .resume 0]

/-- The service after that. -/
def sampleShift : Shift Unit :=
  (Shift.start (.new (some ⟨[sampleOffice], [sampleHost], [sampleGate], []⟩) .ofNat) ⟨(), []⟩).run
    sampleBell sampleTurns

theorem deliveries_orderly_sample :
    Orderly sampleBell sampleShift ∧
      sampleShift.world.outside.state.calls =
        [.knock .hipchat sampleGate sampleHost, .knock .slack sampleGate sampleHost] ∧
      sampleShift.drains.map (·.wait) = [.returned] := by
  have hlabelled : sampleBell.providers.Labelled := by
    intro channel account notifier hnotifier
    cases hnotifier
    rfl
  exact ⟨deliveries_orderly sampleBell hlabelled _ _ sampleTurns, by decide, by decide⟩

end Concierge
