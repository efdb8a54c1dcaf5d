import Concierge.Proofs.Directory.Entries
import Concierge.Proofs.Directory.Users
import Concierge.Proofs.Http.Questions
import Concierge.Proofs.Sync.Fetch

/-!
# A directory is fetched wholly or not at all

The hub, HipChat and Slack are asked here on any network, and whatever they reply.  For each there is a
relation between the turns of a fetch and what it comes to: either every question was answered, and the
users are those that the answers describe, one by one and in order, or the first question that was not
answered is the last that was asked, and its failure is all that is left.  HipChat's is the longest: it
names its users in a list, and each of them has to be viewed.

A synchronization therefore reconciles a user only if the directory of the user's tag gave all of its
users at once.
-/

namespace Concierge

open Http (Network Turn Conversation Asked Interview)
open Json (Tree Reader)

/-- Logging what was found changes neither what was found nor the network. -/
theorem report_found {α : Type} (attempt : Attempt Network α) (event : α → Event)
    (o : Outside Network) :
    let whole : Attempt Network α := do
      let found ← attempt
      Attempt.report (event found)
      return found
    (whole o).1 = (attempt o).1 ∧ (whole o).2.state = (attempt o).2.state := by
  intro whole
  cases hresult : attempt o with
  | mk result o' =>
    cases result with
    | error stop =>
      rw [show whole o = (.error stop, o') from Fallible.bind_of_error hresult]
      exact ⟨rfl, rfl⟩
    | ok found =>
      rw [show whole o = (do Attempt.report (event found); return found : Attempt Network α) o' from
        Fallible.bind_of_ok hresult]
      exact ⟨rfl, rfl⟩

/-! ## The hub -/

/-- What a fetch from a hub comes to. -/
inductive Hub.Course (url token : String) : List Turn → Except Stop (List RemoteUser) → Prop where
  | unanswered {turns : List Turn} {stop : Stop}
      (asked : Asked (.list Entry.reader) (draft url token) turns (.error stop)) :
      Hub.Course url token turns (.error stop)
  | given {turns : List Turn} {t : Tree}
      (asked : Asked (.list Entry.reader) (draft url token) turns (.ok t)) :
      Hub.Course url token turns (.ok (t.elements.map described))

theorem Hub.users_course (url token : String) (o : Outside Network) :
    ∃ turns, Conversation o.state turns (Hub.users url token o).2.state ∧
      Hub.Course url token turns (Hub.users url token o).1 := by
  obtain ⟨turns, o', hconversation, ⟨stop, hasked, heq⟩ | ⟨t, entries, hasked, hread, heq⟩⟩ :=
    Http.ask_cases (.list Entry.reader) (draft url token) (fun entries => do
      Attempt.report (.usersFetched .hub entries.length)
      return entries.map Entry.toUser) o
  · rw [Hub.users, heq]
    exact ⟨turns, hconversation, .unanswered hasked⟩
  · have hfound : Hub.Course url token turns (.ok (entries.map Entry.toUser)) :=
      (Hub.of_read hread).1 ▸ .given hasked
    rw [Hub.users, heq]
    exact ⟨turns, hconversation, hfound⟩

/-! ## Slack -/

namespace Slack.Directory

/-- What a fetch from Slack comes to.  Only an answer that says it is well counts, and of its
members only those that are people. -/
inductive Course (baseUrl token : String) :
    List Turn → Except Stop (List RemoteUser) → Prop where
  | unanswered {turns : List Turn} {stop : Stop}
      (asked : Asked Listing.reader (draft baseUrl token) turns (.error stop)) :
      Course baseUrl token turns (.error stop)
  | rejected {turns : List Turn} {t : Tree}
      (asked : Asked Listing.reader (draft baseUrl token) turns (.ok t))
      (unwell : t.field? ["ok"] 0 = some (.bool false)) :
      Course baseUrl token turns
        (.error (.failed (.rejected ((t.textAt? ["error"] 1).getD "unknown_error"))))
  | given {turns : List Turn} {t : Tree}
      (asked : Asked Listing.reader (draft baseUrl token) turns (.ok t))
      (well : t.field? ["ok"] 0 = some (.bool true)) :
      Course baseUrl token turns (.ok (((listed t).filter (! isGone ·)).map described))

theorem users_course (baseUrl token : String) (o : Outside Network) :
    ∃ turns, Conversation o.state turns (users baseUrl token o).2.state ∧
      Course baseUrl token turns (users baseUrl token o).1 := by
  obtain ⟨turns, o', hconversation, ⟨stop, hasked, heq⟩ | ⟨t, listing, hasked, hread, heq⟩⟩ :=
    Http.ask_cases Listing.reader (draft baseUrl token) (fun listing =>
      if ! listing.ok then Attempt.fail (.rejected (listing.error.getD "unknown_error"))
      else do
        let users := (listing.members.filter Member.isPerson).map Member.toUser
        Attempt.report (.usersFetched .slack users.length)
        return users) o
  · rw [users, heq]
    exact ⟨turns, hconversation, .unanswered hasked⟩
  · obtain ⟨hok, herror, hmembers, -⟩ := Listing.of_read hread
    refine ⟨turns, ?_⟩
    rw [users, heq]
    cases hwell : listing.ok with
    | false =>
      rw [hwell] at hok
      exact ⟨hconversation, herror ▸ .rejected hasked hok⟩
    | true =>
      rw [hwell] at hok
      have hfound : Course baseUrl token turns
          (.ok ((listing.members.filter Member.isPerson).map Member.toUser)) :=
        hmembers ▸ .given hasked hok
      exact ⟨hconversation, hfound⟩

end Slack.Directory

/-! ## HipChat -/

namespace HipChat.Directory

/-- What a fetch from HipChat comes to.  Who is listed is viewed, one after the other, until all are
or a view is not given. -/
inductive Course (baseUrl token : String) :
    List Turn → Except Stop (List RemoteUser) → Prop where
  | unlisted {turns : List Turn} {stop : Stop}
      (asked : Asked listReader (listDraft baseUrl token) turns (.error stop)) :
      Course baseUrl token turns (.error stop)
  | listed {first later : List Turn} {t : Tree} {views : Except Stop (List Tree)}
      (asked : Asked listReader (listDraft baseUrl token) first (.ok t))
      (viewed : Interview Details.reader ((listed t).map (userDraft baseUrl token)) later views) :
      Course baseUrl token (first ++ later) (views.map fun ts => ts.map described)

/-- The users are viewed in order, and what the views describe is found, if all are given. -/
theorem details_interview (baseUrl token : String) (ids : List Nat) (o : Outside Network) :
    ∃ turns views, Conversation o.state turns (details baseUrl token ids o).2.state ∧
      Interview Details.reader (ids.map (userDraft baseUrl token)) turns views ∧
      (details baseUrl token ids o).1 = views.map fun ts => ts.map described := by
  induction ids generalizing o with
  | nil => exact ⟨[], .ok [], .nil _, .done, rfl⟩
  | cons id rest ih =>
    obtain ⟨turns, o', hconversation, ⟨stop, hasked, heq⟩ | ⟨t, d, hasked, hread, heq⟩⟩ :=
      Http.ask_cases Details.reader (userDraft baseUrl token id) (fun d => do
        return d.toUser :: (← details baseUrl token rest)) o
    · rw [details, heq]
      exact ⟨turns, .error stop, hconversation, .broken hasked, rfl⟩
    · obtain ⟨later, views, hlater, hinterview, hviews⟩ := ih o'
      rw [details, heq, Fallible.bind_pure_eq]
      refine ⟨turns ++ later, views.map (t :: ·), hconversation.append hlater,
        .next hasked hinterview, ?_⟩
      rw [hviews, (Details.of_read hread).1]
      cases views <;> rfl

theorem users_course (baseUrl token : String) (o : Outside Network) :
    ∃ turns, Conversation o.state turns (users baseUrl token o).2.state ∧
      Course baseUrl token turns (users baseUrl token o).1 := by
  obtain ⟨turns, o', hconversation, ⟨stop, hasked, heq⟩ | ⟨t, ids, hasked, hread, heq⟩⟩ :=
    Http.ask_cases listReader (listDraft baseUrl token) (fun ids => do
      let users ← details baseUrl token ids
      Attempt.report (.usersFetched .hipchat users.length)
      return users) o
  · rw [users, heq]
    exact ⟨turns, hconversation, .unlisted hasked⟩
  · obtain ⟨rfl, -⟩ := listed_of_read hread
    obtain ⟨later, views, hlater, hinterview, hviews⟩ :=
      details_interview baseUrl token (listed t) o'
    obtain ⟨hresult, hstate⟩ := report_found (details baseUrl token (listed t))
      (fun users => .usersFetched .hipchat users.length) o'
    refine ⟨turns ++ later, ?_, ?_⟩
    · rw [users, heq, hstate]
      exact hconversation.append hlater
    · rw [users, heq, hresult, hviews]
      exact .listed hasked hinterview

end HipChat.Directory

/-! ## Who is left to be reconciled -/

namespace Sync

variable {σ : Type} {providers : Providers σ} {account : Account}

theorem fetchAll_append (before after : List Bridge) (w : World σ) :
    (fetchAll providers account (before ++ after) w).1 =
      (fetchAll providers account before w).1 ++
        (fetchAll providers account after (fetchAll providers account before w).2).1 := by
  induction before generalizing w with
  | nil => rfl
  | cons bridge rest ih => exact congrArg (_ :: ·) (ih _)

/-- A directory contributes the users that it gave, all of them, and nothing if it gave none. -/
theorem fetch_cases (providers : Providers σ) (account : Account) (bridge : Bridge) (w : World σ) :
    (fetch providers account bridge w).1 = none ∨
      ∃ c, (fetch providers account bridge w).1 = some c ∧
        (providers.users account bridge w.outside).1 = .ok c.users := by
  unfold fetch
  split
  · exact .inl rfl
  · exact .inl rfl
  · next users outside husers =>
    split
    · exact .inr ⟨_, rfl, by rw [husers]⟩
    · exact .inl rfl

/-- Users are reconciled only if a fetch of a listed directory gave them. -/
theorem exists_fetch_of_mem {bridges : List Bridge} {w : World σ} {user : RemoteUser}
    (h : user ∈ usersOf (fetchAll providers account bridges w).1) :
    ∃ before bridge after users, bridges = before ++ bridge :: after ∧
      (providers.users account bridge (fetchAll providers account before w).2.outside).1 = .ok users ∧
      user ∈ users := by
  induction bridges generalizing w with
  | nil => cases h
  | cons bridge rest ih =>
    rw [fetchAll, usersOf, List.flatMap_cons, List.mem_append] at h
    obtain hfirst | hlater := h
    · obtain hnone | ⟨c, hsome, husers⟩ := fetch_cases providers account bridge w
      · rw [hnone] at hfirst
        cases hfirst
      · rw [hsome] at hfirst
        exact ⟨[], bridge, rest, c.users, rfl, husers, hfirst⟩
    · obtain ⟨before, other, after, users, rfl, husers, hmem⟩ := ih hlater
      exact ⟨bridge :: before, other, after, users, rfl, husers, hmem⟩

/-- A fetch that fails leaves the users of the directories before and after. -/
theorem usersOf_of_failed {before after : List Bridge} {bridge : Bridge} {w : World σ} {stop : Stop}
    (h : (providers.users account bridge (fetchAll providers account before w).2.outside).1 =
      .error stop) :
    usersOf (fetchAll providers account (before ++ bridge :: after) w).1 =
      usersOf (fetchAll providers account before w).1 ++
        usersOf (fetchAll providers account after
          (fetch providers account bridge (fetchAll providers account before w).2).2).1 := by
  have hnone : (fetch providers account bridge (fetchAll providers account before w).2).1 = none := by
    obtain hnone | ⟨c, -, husers⟩ := fetch_cases providers account bridge
      (fetchAll providers account before w).2
    · exact hnone
    · rw [h] at husers
      cases husers
  rw [fetchAll_append, usersOf, List.flatMap_append, fetchAll, List.flatMap_cons, hnone]
  rfl

end Sync

/-- Whatever the network replies, HipChat, Slack and the hub are fetched wholly or not at all, in
order and user by user; and whatever the limit of a fetch is, whoever is reconciled belongs to a directory
that was fetched wholly, while one whose fetch failed adds nobody. -/
theorem fetched_wholly_or_not_at_all (baseUrl token : String) (o : Outside Network) :
    (∃ turns, Conversation o.state turns (HipChat.Directory.users baseUrl token o).2.state ∧
      HipChat.Directory.Course baseUrl token turns
        (HipChat.Directory.users baseUrl token o).1) ∧
    (∃ turns, Conversation o.state turns (Slack.Directory.users baseUrl token o).2.state ∧
      Slack.Directory.Course baseUrl token turns
        (Slack.Directory.users baseUrl token o).1) ∧
    (∃ turns, Conversation o.state turns (Hub.users baseUrl token o).2.state ∧
      Hub.Course baseUrl token turns (Hub.users baseUrl token o).1) ∧
    ∀ (p : ProviderSettings) (limitMs : Nat) (account : Account) (bridges : List Bridge)
      (w : World Network),
      let fetched (bridges : List Bridge) :=
        Sync.fetchAll (p.providers.within limitMs) account bridges w
      (∀ user ∈ Sync.usersOf (fetched bridges).1, ∃ before after users,
        bridges = before ++ user.bridge :: after ∧
          (p.users account user.bridge (fetched before).2.outside).1 = .ok users ∧ user ∈ users) ∧
      ∀ before bridge after stop, bridges = before ++ bridge :: after →
        (p.users account bridge (fetched before).2.outside).1 = .error stop →
          Sync.usersOf (fetched bridges).1 = Sync.usersOf (fetched before).1 ++
            Sync.usersOf (Sync.fetchAll (p.providers.within limitMs) account after
              (Sync.fetch (p.providers.within limitMs) account bridge (fetched before).2).2).1 := by
  refine ⟨HipChat.Directory.users_course _ _ _, Slack.Directory.users_course _ _ _,
    Hub.users_course _ _ _, fun p limitMs account bridges w => ?_⟩
  rw [p.providers_within]
  refine ⟨fun user huser => ?_, ?_⟩
  · obtain ⟨before, bridge, after, users, hbridges, husers, hmem⟩ := Sync.exists_fetch_of_mem huser
    have htag : user.bridge = bridge :=
      (p.users_yields account bridge _ users _ (Prod.ext husers rfl) user hmem).1
    rw [htag]
    exact ⟨before, after, users, hbridges, husers, hmem⟩
  · rintro before bridge after stop rfl hfailed
    exact Sync.usersOf_of_failed hfailed

end Concierge
