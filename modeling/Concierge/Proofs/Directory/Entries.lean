import Concierge.Directory.Google
import Concierge.Directory.HipChat
import Concierge.Directory.Hub
import Concierge.Directory.Slack
import Concierge.Proofs.Json.Records

/-!
# What the answers of directories say

For each directory: which user an entry of its answers describes, told from the entry's fields
alone, and that every entry that can be read is read as that user.  An entry can be read only if it
says an identifier; whether that is blank is not asked here.
-/

namespace Concierge

open Json (Tree Reader Fields build_of_record)

theorem map_eq_of_forall₂ {α β γ : Type} {R : α → β → Prop} {f : α → γ} {g : β → γ} {as : List α}
    {bs : List β} (h : List.Forall₂ R as bs) (heq : ∀ a b, R a b → f a = g b) :
    as.map f = bs.map g := by
  rw [← List.forall₂_eq_eq_eq, List.forall₂_map_left_iff, List.forall₂_map_right_iff]
  exact h.imp heq

theorem forall_of_forall₂ {α β : Type} {R : α → β → Prop} {p : α → Prop} {as : List α} {bs : List β}
    (h : List.Forall₂ R as bs) (hp : ∀ a b, R a b → p a) : ∀ a ∈ as, p a :=
  ((List.forall₂_and_left as bs).1 (h.imp fun a b hab => ⟨hp a b hab, hab⟩)).1

theorem filter_map_eq_of_forall₂ {α β γ : Type} {R : α → β → Prop} {p : α → Bool} {q : β → Bool}
    {f : α → γ} {g : β → γ} {as : List α} {bs : List β} (h : List.Forall₂ R as bs)
    (hkeep : ∀ a b, R a b → p a = q b) (heq : ∀ a b, R a b → f a = g b) :
    (as.filter p).map f = (bs.filter q).map g := by
  induction h with
  | nil => rfl
  | @cons a b as bs hab hrest ih =>
    cases hq : q b with
    | false => rw [List.filter_cons_of_neg (by simp [hkeep a b hab, hq]), ih,
        List.filter_cons_of_neg (by simp [hq])]
    | true => rw [List.filter_cons_of_pos ((hkeep a b hab).trans hq), List.map_cons, ih,
        heq a b hab, List.filter_cons_of_pos hq, List.map_cons]

/-- A tree says a number of 64 bits in a field. -/
def Json.Tree.Numbered (names : List String) (place : Nat) (t : Tree) : Prop :=
  ∃ n : Nat, t.field? names place = some (.int n) ∧ n < Width.count 64

theorem Json.decimalAt_eq {names : List String} {place : Nat} {t : Tree} {n : Nat}
    (h : t.field? names place = some (.int n)) : t.decimalAt names place = toString n := by
  rw [Tree.decimalAt, h, Option.bind_some, Json.nat?_int]
  rfl

/-! ## The hub -/

namespace Hub

/-- The user that a person of a hub is. -/
def described (t : Tree) : RemoteUser where
  bridge := .hub
  externalId := t.decimalAt ["ID", "id"] 0
  name := (t.textAt? ["DisplayName", "display_name"] 1).getD ""
  email := (t.textAt? ["Email", "email"] 2).getD ""
  phoneNumber := ""
  title := ""

theorem Entry.of_read {t : Tree} {e : Entry} (h : Entry.reader t = .ok e) :
    e.toUser = described t ∧ t.Numbered ["ID", "id"] 0 := by
  obtain ⟨get, hbuild, hget⟩ := build_of_record (by constructor <;> decide) h
  simp only [Fields.map_build_eq_ok_iff, Fields.seq_build_eq_ok_iff,
    Fields.requiredAs_build_eq_ok_iff, Fields.defaultedAs_build_eq_ok_iff] at hbuild
  obtain ⟨_, email, ⟨_, name, ⟨id, hid, rfl⟩, hname, rfl⟩, hemail, rfl⟩ := hbuild
  rw [show get "ID" = t.field? ["ID", "id"] 0 from hget 0 _ rfl] at hid
  rw [show get "DisplayName" = t.field? ["DisplayName", "display_name"] 1 from hget 1 _ rfl] at hname
  rw [show get "Email" = t.field? ["Email", "email"] 2 from hget 2 _ rfl] at hemail
  have hnumber := Json.int_of_required hid
  refine ⟨?_, id, hnumber⟩
  rw [described, Json.decimalAt_eq hnumber.1, Tree.textAt?, Tree.textAt?,
    Json.bind_text?_of_option hname, Json.bind_text?_of_defaulted hemail]
  rfl

/-- The answer of a hub that can be read is read entry by entry. -/
theorem of_read {t : Tree} {entries : List Entry}
    (h : Reader.list Entry.reader t = .ok entries) :
    entries.map Entry.toUser = t.elements.map described ∧
      ∀ e ∈ t.elements, e.Numbered ["ID", "id"] 0 := by
  obtain ⟨ts, rfl, hts⟩ := Reader.list_eq_ok_iff.1 h
  exact ⟨(map_eq_of_forall₂ hts fun _ _ he => (Entry.of_read he).1.symm).symm,
    forall_of_forall₂ hts fun _ _ he => (Entry.of_read he).2⟩

end Hub

/-! ## HipChat -/

namespace HipChat.Directory

/-- The identifiers that a list of users names. -/
def listed (t : Tree) : List Nat :=
  (t.elementsAt ["items"] 0).map fun e => ((e.field? ["id"] 0).bind Tree.nat?).getD 0

/-- The user that is viewed. -/
def described (t : Tree) : RemoteUser where
  bridge := .hipchat
  externalId := t.decimalAt ["id"] 0
  name := (t.textAt? ["name"] 1).getD ""
  email := (t.textAt? ["email"] 2).getD ""
  phoneNumber := ""
  title := (t.textAt? ["title"] 3).getD ""

theorem item_of_read {t : Tree} {id : Nat}
    (h : Json.record .lenient (Fields.required "id" Reader.word64) t = .ok id) :
    t.field? ["id"] 0 = some (.int id) ∧ id < Width.count 64 := by
  obtain ⟨get, hbuild, hget⟩ := build_of_record (by constructor <;> decide) h
  rw [Fields.required_build_eq_ok_iff,
    show get "id" = t.field? ["id"] 0 from hget 0 _ rfl] at hbuild
  exact Json.int_of_required hbuild

theorem listed_of_read {t : Tree} {ids : List Nat} (h : listReader t = .ok ids) :
    ids = listed t ∧ ∀ e ∈ t.elementsAt ["items"] 0, e.Numbered ["id"] 0 := by
  obtain ⟨get, hbuild, hget⟩ := build_of_record (by constructor <;> decide) h
  rw [Fields.defaulted_build_eq_ok_iff,
    show get "items" = t.field? ["items"] 0 from hget 0 _ rfl] at hbuild
  have hitems := Json.forall₂_of_defaulted hbuild
  refine ⟨?_, forall_of_forall₂ hitems fun _ id he => ⟨id, item_of_read he⟩⟩
  refine (List.map_id ids).symm.trans (map_eq_of_forall₂ hitems fun e id he => ?_).symm
  rw [(item_of_read he).1, Option.bind_some, Json.nat?_int]
  rfl

theorem Details.of_read {t : Tree} {d : Details} (h : Details.reader t = .ok d) :
    d.toUser = described t ∧ t.Numbered ["id"] 0 := by
  obtain ⟨get, hbuild, hget⟩ := build_of_record (by constructor <;> decide) h
  simp only [Fields.map_build_eq_ok_iff, Fields.seq_build_eq_ok_iff,
    Fields.required_build_eq_ok_iff, Fields.defaulted_build_eq_ok_iff] at hbuild
  obtain ⟨_, title, ⟨_, email, ⟨_, name, ⟨id, hid, rfl⟩, hname, rfl⟩, hemail, rfl⟩, htitle, rfl⟩ :=
    hbuild
  rw [show get "id" = t.field? ["id"] 0 from hget 0 _ rfl] at hid
  rw [show get "name" = t.field? ["name"] 1 from hget 1 _ rfl] at hname
  rw [show get "email" = t.field? ["email"] 2 from hget 2 _ rfl] at hemail
  rw [show get "title" = t.field? ["title"] 3 from hget 3 _ rfl] at htitle
  have hnumber := Json.int_of_required hid
  refine ⟨?_, id, hnumber⟩
  rw [described, Json.decimalAt_eq hnumber.1, Tree.textAt?, Tree.textAt?, Tree.textAt?,
    Json.bind_text?_of_defaulted hname, Json.bind_text?_of_defaulted hemail,
    Json.bind_text?_of_defaulted htitle]
  rfl

end HipChat.Directory

/-! ## Slack -/

namespace Slack.Directory

/-- The member has left, or is a bot or a guest. -/
def isGone (t : Tree) : Bool :=
  t.affirms ["deleted"] 1 || t.affirms ["is_bot"] 2 || t.affirms ["is_restricted"] 3 ||
    t.affirms ["is_ultra_restricted"] 4

/-- The user that a member is: named by their own name, if they have one, and otherwise by the one
in their profile. -/
def described (t : Tree) : RemoteUser :=
  let profile := (t.field? ["profile"] 6).getD .null
  { bridge := .slack
    externalId := (t.textAt? ["id"] 0).getD ""
    name := (t.textAt? ["real_name"] 5).getD ((profile.textAt? ["real_name"] 2).getD "")
    email := (profile.textAt? ["email"] 0).getD ""
    phoneNumber := ""
    title := (profile.textAt? ["title"] 1).getD "" }

/-- The members that an answer lists. -/
def listed (t : Tree) : List Tree := t.elementsAt ["members"] 2

theorem Profile.of_read {t : Tree} {p : Profile} (h : Profile.reader t = .ok p) :
    p = ⟨(t.textAt? ["email"] 0).getD "", (t.textAt? ["title"] 1).getD "",
      (t.textAt? ["real_name"] 2).getD ""⟩ := by
  obtain ⟨get, hbuild, hget⟩ := build_of_record (by constructor <;> decide) h
  simp only [Fields.map_build_eq_ok_iff, Fields.seq_build_eq_ok_iff,
    Fields.defaulted_build_eq_ok_iff] at hbuild
  obtain ⟨_, name, ⟨_, title, ⟨email, hemail, rfl⟩, htitle, rfl⟩, hname, rfl⟩ := hbuild
  rw [show get "email" = t.field? ["email"] 0 from hget 0 _ rfl] at hemail
  rw [show get "title" = t.field? ["title"] 1 from hget 1 _ rfl] at htitle
  rw [show get "real_name" = t.field? ["real_name"] 2 from hget 2 _ rfl] at hname
  rw [Tree.textAt?, Tree.textAt?, Tree.textAt?, Json.bind_text?_of_defaulted hemail,
    Json.bind_text?_of_defaulted htitle, Json.bind_text?_of_defaulted hname]

theorem Member.of_read {t : Tree} {m : Member} (h : Member.reader t = .ok m) :
    m.toUser = described t ∧ m.isPerson = ! isGone t ∧ t.textAt? ["id"] 0 = some m.id := by
  obtain ⟨get, hbuild, hget⟩ := build_of_record (by constructor <;> decide) h
  simp only [Fields.map_build_eq_ok_iff, Fields.seq_build_eq_ok_iff,
    Fields.required_build_eq_ok_iff, Fields.defaulted_build_eq_ok_iff] at hbuild
  obtain ⟨_, profile, ⟨_, name, ⟨_, ultra, ⟨_, restricted, ⟨_, bot, ⟨_, deleted,
    ⟨id, hid, rfl⟩, hdeleted, rfl⟩, hbot, rfl⟩, hrestricted, rfl⟩, hultra, rfl⟩, hname, rfl⟩,
    hprofile, rfl⟩ := hbuild
  rw [show get "id" = t.field? ["id"] 0 from hget 0 _ rfl] at hid
  rw [show get "deleted" = t.field? ["deleted"] 1 from hget 1 _ rfl] at hdeleted
  rw [show get "is_bot" = t.field? ["is_bot"] 2 from hget 2 _ rfl] at hbot
  rw [show get "is_restricted" = t.field? ["is_restricted"] 3 from hget 3 _ rfl] at hrestricted
  rw [show get "is_ultra_restricted" = t.field? ["is_ultra_restricted"] 4 from hget 4 _ rfl] at hultra
  rw [show get "real_name" = t.field? ["real_name"] 5 from hget 5 _ rfl] at hname
  rw [show get "profile" = t.field? ["profile"] 6 from hget 6 _ rfl] at hprofile
  have hid := Json.bind_text?_of_required hid
  have hprofile : profile = let said := (t.field? ["profile"] 6).getD .null
      ⟨(said.textAt? ["email"] 0).getD "", (said.textAt? ["title"] 1).getD "",
        (said.textAt? ["real_name"] 2).getD ""⟩ := by
    obtain ⟨hnone, rfl⟩ | ⟨said, hsaid, hread⟩ := hprofile
    · rw [hnone]
      rfl
    · rw [hsaid]
      exact Profile.of_read hread
  refine ⟨?_, ?_, hid⟩
  · rw [described, Tree.textAt?, Tree.textAt?, hid, Json.bind_text?_of_option hname, hprofile]
    rfl
  · rw [isGone, Json.affirms_of_defaulted hdeleted, Json.affirms_of_defaulted hbot,
      Json.affirms_of_defaulted hrestricted, Json.affirms_of_defaulted hultra]
    rfl

theorem Listing.of_read {t : Tree} {l : Listing} (h : Listing.reader t = .ok l) :
    t.field? ["ok"] 0 = some (.bool l.ok) ∧ t.textAt? ["error"] 1 = l.error ∧
      (l.members.filter Member.isPerson).map Member.toUser =
        ((listed t).filter (! isGone ·)).map described ∧
      ∀ e ∈ listed t, ∃ id, e.textAt? ["id"] 0 = some id := by
  obtain ⟨get, hbuild, hget⟩ := build_of_record (by constructor <;> decide) h
  simp only [Fields.map_build_eq_ok_iff, Fields.seq_build_eq_ok_iff,
    Fields.required_build_eq_ok_iff, Fields.defaulted_build_eq_ok_iff] at hbuild
  obtain ⟨_, found, ⟨_, error, ⟨ok, hok, rfl⟩, herror, rfl⟩, hfound, rfl⟩ := hbuild
  rw [show get "ok" = t.field? ["ok"] 0 from hget 0 _ rfl] at hok
  rw [show get "error" = t.field? ["error"] 1 from hget 1 _ rfl] at herror
  rw [show get "members" = t.field? ["members"] 2 from hget 2 _ rfl] at hfound
  have hmembers := Json.forall₂_of_defaulted hfound
  refine ⟨?_, Json.bind_text?_of_option herror, ?_, ?_⟩
  · obtain ⟨said, hsaid, hread⟩ := hok
    rw [hsaid, Reader.bool_eq_ok_iff.1 hread]
  · exact (filter_map_eq_of_forall₂ hmembers (fun _ _ hm => (Member.of_read hm).2.1.symm)
      fun _ _ hm => (Member.of_read hm).1.symm).symm
  · exact forall_of_forall₂ hmembers fun _ m hm => ⟨m.id, (Member.of_read hm).2.2⟩

end Slack.Directory

/-! ## Google -/

namespace Google

/-- The users that a page lists. -/
def listed (t : Tree) : List Tree := t.elementsAt ["users"] 0

theorem Entry.of_read {t : Tree} {e : Entry} (h : Entry.reader t = .ok e) :
    t.textAt? ["id"] 0 = some e.id := by
  obtain ⟨get, hbuild, hget⟩ := build_of_record (by constructor <;> decide) h
  simp only [Fields.map_build_eq_ok_iff, Fields.seq_build_eq_ok_iff,
    Fields.required_build_eq_ok_iff] at hbuild
  obtain ⟨_, _, ⟨_, _, ⟨id, hid, rfl⟩, -, rfl⟩, -, rfl⟩ := hbuild
  rw [show get "id" = t.field? ["id"] 0 from hget 0 _ rfl] at hid
  exact Json.bind_text?_of_required hid

theorem Page.of_read {t : Tree} {p : Page} (h : Page.reader t = .ok p) :
    List.Forall₂ (fun t e => t.textAt? ["id"] 0 = some e.id) (listed t) p.entries := by
  obtain ⟨get, hbuild, hget⟩ := build_of_record (by constructor <;> decide) h
  simp only [Fields.map_build_eq_ok_iff, Fields.seq_build_eq_ok_iff,
    Fields.defaulted_build_eq_ok_iff] at hbuild
  obtain ⟨_, _, ⟨entries, hentries, rfl⟩, -, rfl⟩ := hbuild
  rw [show get "users" = t.field? ["users"] 0 from hget 0 _ rfl] at hentries
  exact (Json.forall₂_of_defaulted hentries).imp fun _ _ he => Entry.of_read he

end Google

end Concierge
