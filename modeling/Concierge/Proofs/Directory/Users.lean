import Concierge.Http.Providers
import Concierge.Proofs.Http.Questions
import Concierge.Proofs.Outside

/-!
# What the directories on the network give

Whatever comes back from the network, a directory gives users that are tagged with it and that have
no phone numbers: no reader asks for one.  While the network keeps it waiting it waits, so whoever asks
it within a limit sees what they would see without one.
-/

namespace Concierge

open Fallible

/-- Users as a directory on the network gives them. -/
def GivenBy (bridge : Bridge) (users : List RemoteUser) : Prop :=
  ∀ user ∈ users, user.bridge = bridge ∧ user.phoneNumber = ""

/-- Users that are made one by one are as each of them is. -/
theorem givenBy_map {α : Type} {bridge : Bridge} (toUser : α → RemoteUser)
    (h : ∀ entry, (toUser entry).bridge = bridge ∧ (toUser entry).phoneNumber = "")
    (entries : List α) : GivenBy bridge (entries.map toUser) := by
  intro user huser
  obtain ⟨entry, -, rfl⟩ := List.mem_map.1 huser
  exact h entry

/-- Users of one page after those of another. -/
theorem GivenBy.append {bridge : Bridge} {first rest : List RemoteUser}
    (hfirst : GivenBy bridge first) (hrest : GivenBy bridge rest) :
    GivenBy bridge (first ++ rest) := by
  intro user huser
  rcases List.mem_append.1 huser with hmem | hmem
  · exact hfirst user hmem
  · exact hrest user hmem

theorem Hub.users_yields (url token : String) :
    Yields (Hub.users url token) (GivenBy .hub) :=
  yields_bind (yields_true _) fun entries _ =>
    yields_bind (yields_true _) fun _ _ =>
      yields_pure (givenBy_map Entry.toUser (fun _ => ⟨rfl, rfl⟩) entries)

theorem Slack.Directory.users_yields (baseUrl token : String) :
    Yields (Slack.Directory.users baseUrl token) (GivenBy .slack) := by
  refine yields_bind (yields_true _) fun listing _ => ?_
  by_cases hok : listing.ok
  · simp only [hok, Bool.not_true, Bool.false_eq_true, if_false]
    exact yields_bind (yields_true _) fun _ _ =>
      yields_pure (givenBy_map Member.toUser (fun _ => ⟨rfl, rfl⟩) _)
  · simp only [hok, Bool.not_false, if_true]
    exact yields_throw _ _

/-- Asking for users one after the other. -/
theorem HipChat.Directory.details_yields (baseUrl token : String) (ids : List Nat) :
    Yields (HipChat.Directory.details baseUrl token ids) (GivenBy .hipchat) := by
  induction ids with
  | nil => exact yields_pure fun _ huser => absurd huser List.not_mem_nil
  | cons id rest ih =>
    refine yields_bind (yields_true _) fun d _ => yields_bind ih fun others hothers => ?_
    have hfirst : GivenBy .hipchat ([d].map Details.toUser) :=
      givenBy_map Details.toUser (fun _ => ⟨rfl, rfl⟩) _
    exact yields_pure (hfirst.append hothers)

theorem HipChat.Directory.users_yields (baseUrl token : String) :
    Yields (HipChat.Directory.users baseUrl token) (GivenBy .hipchat) :=
  yields_bind (yields_true _) fun ids _ =>
    yields_bind (details_yields baseUrl token ids) fun _ husers =>
      yields_bind (yields_true _) fun _ _ => yields_pure husers

/-- The users of a page that has all identifiers. -/
theorem Google.Page.users?_eq_some {page : Google.Page} {users : List RemoteUser}
    (h : page.users? = some users) : users = page.entries.map Entry.toUser := by
  obtain ⟨entries, next⟩ := page
  change entries.mapM _ = _ at h
  induction entries generalizing users with
  | nil =>
    cases h
    rfl
  | cons e rest ih =>
    rw [List.mapM_cons] at h
    obtain ⟨first, hfirst, hothers⟩ := Option.bind_eq_some_iff.1 h
    obtain ⟨others, hrest, husers⟩ := Option.bind_eq_some_iff.1 hothers
    cases husers
    have hnonblank : first = e.toUser := by
      by_cases hblank : Text.isBlank e.id
      · simp [hblank] at hfirst
      · simpa [hblank, eq_comm] using hfirst
    rw [hnonblank, ih hrest]
    rfl

/-- Asking for page after page. -/
theorem Google.pages_yields (baseUrl customer token : String) (fuel : Nat) (page : Option String) :
    Yields (Google.pages baseUrl customer token fuel page) (GivenBy .googleDirectory) := by
  induction fuel generalizing page with
  | zero => exact yields_throw _ _
  | succ fuel ih =>
    refine yields_bind (yields_true _) fun answer _ => ?_
    cases husers : answer.users? with
    | none => exact yields_throw _ _
    | some users =>
      have hgiven : GivenBy .googleDirectory users :=
        Page.users?_eq_some husers ▸ givenBy_map Entry.toUser (fun _ => ⟨rfl, rfl⟩) _
      cases hnext : answer.next? with
      | none => exact yields_pure hgiven
      | some next =>
        exact yields_bind (ih (some next)) fun _ hrest => yields_pure (hgiven.append hrest)

theorem Google.users_yields (baseUrl customer token : String) :
    Yields (Google.users baseUrl customer token) (GivenBy .googleDirectory) :=
  yields_bind (yields_true _) fun _ _ =>
    yields_bind (pages_yields baseUrl customer token _ none) fun _ husers =>
      yields_bind (yields_true _) fun _ _ => yields_pure husers

/-! ## Waiting -/

section

open Attempt (Patient patient_fail patient_report)

theorem Http.Answer.failure_endsWithin (a : Http.Answer) (limitMs : Nat) :
    a.failure.endsWithin limitMs = false := by
  unfold failure
  cases a.ending <;> rfl

theorem Http.send_patient (d : Http.Draft) : (Http.send d).Patient := by
  intro o stop o' hrun limitMs
  cases hbuild : d.build with
  | error e =>
    rw [send_of_unbuilt hbuild] at hrun
    cases hrun
    rfl
  | ok r =>
    rw [send_of_built hbuild] at hrun
    have hstop := congrArg Prod.fst hrun
    simp only [Reply.outcome] at hstop
    split at hstop
    · split at hstop
      · cases hstop
      · next a _ _ =>
        cases hstop
        exact a.failure_endsWithin limitMs
    all_goals
      cases hstop
      rfl

theorem Http.sendFor_patient {α : Type} (reader : Json.Reader α) (d : Http.Draft) :
    (Http.sendFor reader d).Patient := by
  rw [sendFor_eq]
  refine fails_bind (send_patient d) fun a => ?_
  cases hread : a.read reader with
  | ok x => exact fails_pure x _
  | error stop =>
    refine fails_throw fun limitMs => ?_
    simp only [Answer.read] at hread
    split at hread
    · split at hread <;> cases hread
      rfl
    all_goals
      cases hread
      rfl

theorem Hub.users_patient (url token : String) : (Hub.users url token).Patient :=
  fails_bind (Http.sendFor_patient _ _) fun _ => fails_bind (patient_report _) fun _ => fails_pure _ _

theorem Slack.Directory.users_patient (baseUrl token : String) :
    (Slack.Directory.users baseUrl token).Patient := by
  refine fails_bind (Http.sendFor_patient _ _) fun listing => ?_
  cases listing.ok with
  | false => exact patient_fail _
  | true => exact fails_bind (patient_report _) fun _ => fails_pure _ _

theorem HipChat.Directory.details_patient (baseUrl token : String) (ids : List Nat) :
    (HipChat.Directory.details baseUrl token ids).Patient := by
  induction ids with
  | nil => exact fails_pure _ _
  | cons id rest ih =>
    exact fails_bind (Http.sendFor_patient _ _) fun _ => fails_bind ih fun _ => fails_pure _ _

theorem HipChat.Directory.users_patient (baseUrl token : String) :
    (HipChat.Directory.users baseUrl token).Patient :=
  fails_bind (Http.sendFor_patient _ _) fun ids => fails_bind (details_patient _ _ ids) fun _ =>
    fails_bind (patient_report _) fun _ => fails_pure _ _

theorem Google.pages_patient (baseUrl customer token : String) (fuel : Nat) (page : Option String) :
    (Google.pages baseUrl customer token fuel page).Patient := by
  induction fuel generalizing page with
  | zero => exact patient_fail _
  | succ fuel ih =>
    refine fails_bind (Http.sendFor_patient _ _) fun answer => ?_
    cases answer.users? with
    | none => exact patient_fail _
    | some users =>
      cases answer.next? with
      | none => exact fails_pure _ _
      | some next => exact fails_bind (ih (some next)) fun _ => fails_pure _ _

theorem Google.users_patient (baseUrl customer token : String) :
    (Google.users baseUrl customer token).Patient :=
  fails_bind (fun _ _ _ hrun => nomatch hrun) fun _ => fails_bind (pages_patient _ _ _ _ _) fun _ =>
    fails_bind (patient_report _) fun _ => fails_pure _ _

end

/-! ## All directories -/

namespace ProviderSettings

/-- What it is to ask a directory for users: it is refused, or the directory is asked. -/
inductive Asks (p : ProviderSettings) : Bridge → Attempt Http.Network (List RemoteUser) → Prop
  | refused (bridge : Bridge) (e : ProviderError) : p.Asks bridge (Attempt.fail e)
  | hub (url token : String) : p.Asks .hub (Hub.users url token)
  | googleDirectory (token : String) : p.Asks .googleDirectory
    (Google.users p.googleDirectory.baseUrl p.googleDirectory.customer token)
  | hipchat (token : String) : p.Asks .hipchat (HipChat.Directory.users p.hipchat.baseUrl token)
  | slack (token : String) : p.Asks .slack (Slack.Directory.users p.slack.baseUrl token)

variable (p : ProviderSettings) (account : Account) (bridge : Bridge)

/-- A directory that is switched off or lacks what it needs is refused. -/
theorem directory_asks {p : ProviderSettings} {bridge : Bridge} (enabled : Bool)
    {source : Option (Attempt Http.Network (List RemoteUser))}
    (h : ∀ users ∈ source, p.Asks bridge users) : p.Asks bridge (directory bridge enabled source) := by
  cases enabled with
  | false => exact .refused bridge _
  | true =>
    cases source with
    | none => exact .refused bridge _
    | some users => exact h users rfl

theorem users_asks : p.Asks bridge (p.users account bridge) := by
  unfold users
  cases bridge with
  | hub =>
    refine directory_asks _ fun users husers => ?_
    obtain ⟨url, -, hrest⟩ := Option.bind_eq_some_iff.1 husers
    obtain ⟨token, -, htoken⟩ := Option.bind_eq_some_iff.1 hrest
    exact Option.some.inj htoken ▸ .hub url token
  | googleDirectory =>
    refine directory_asks _ fun users husers => ?_
    obtain ⟨token, -, htoken⟩ := Option.bind_eq_some_iff.1 husers
    exact Option.some.inj htoken ▸ .googleDirectory token
  | hipchat =>
    refine directory_asks _ fun users husers => ?_
    obtain ⟨token, -, htoken⟩ := Option.bind_eq_some_iff.1 husers
    exact Option.some.inj htoken ▸ .hipchat token
  | slack =>
    refine directory_asks _ fun users husers => ?_
    obtain ⟨token, -, htoken⟩ := Option.bind_eq_some_iff.1 husers
    exact Option.some.inj htoken ▸ .slack token

/-- What comes from a directory on the network is tagged with it and has no phone numbers. -/
theorem users_yields : Yields (p.users account bridge) (GivenBy bridge) := by
  have h := p.users_asks account bridge
  generalize p.users account bridge = fetch at h ⊢
  cases h with
  | refused bridge e => exact yields_throw _ _
  | hub url token => exact Hub.users_yields url token
  | googleDirectory token => exact Google.users_yields _ _ token
  | hipchat token => exact HipChat.Directory.users_yields _ token
  | slack token => exact Slack.Directory.users_yields _ token

/-- Within whatever limit, the directories are asked as without one. -/
theorem providers_within (limitMs : Nat) : p.providers.within limitMs = p.providers := by
  have hpatient : ∀ account bridge, (p.users account bridge).Patient := by
    intro account bridge
    have h := p.users_asks account bridge
    generalize p.users account bridge = fetch at h ⊢
    cases h with
    | refused bridge e => exact Attempt.patient_fail e
    | hub url token => exact Hub.users_patient url token
    | googleDirectory token => exact Google.users_patient _ _ token
    | hipchat token => exact HipChat.Directory.users_patient _ token
    | slack token => exact Slack.Directory.users_patient _ token
  have husers : (fun account bridge => (p.users account bridge).within limitMs) = p.users :=
    funext₂ fun account bridge => (hpatient account bridge).within_eq limitMs
  rw [Providers.within, providers, husers]

end ProviderSettings

end Concierge
