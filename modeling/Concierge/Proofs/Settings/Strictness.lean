import Concierge.Proofs.Settings.Layouts

/-!
# The service's settings are read strictly and in parts

A value whose sections are all objects holds settings of the service exactly if every key is one of its
section and every value that is given fits.  Each setting is then the value that is given for it, or
else its default, whatever else is given and in whichever order.
-/

namespace Concierge

open Json (Layout)

/-- Where nothing is tolerated, every key is a field's, and no key is said twice. -/
theorem Json.Tolerance.strict_admits_iff {keys : List String} {members : List (String × Json)} :
    strict.Admits keys members ↔ (∀ m ∈ members, m.1 ∈ keys) ∧ (members.map (·.1)).Nodup := by
  have hall (h : ∀ m ∈ members, m.1 ∈ keys) :
      (members.map (·.1)).filter keys.contains = members.map (·.1) := by
    simpa using h
  constructor
  · rintro ⟨hknown, honce⟩
    have hkeys := hknown rfl
    exact ⟨hkeys, hall hkeys ▸ honce⟩
  · rintro ⟨hkeys, hnodup⟩
    exact ⟨fun _ => hkeys, (hall hkeys).symm ▸ hnodup⟩

namespace ServiceSettings

theorem strict_sections : ∀ c ∈ (layout .strict).sections, c.tolerance = .strict := by
  simp [layout, ProviderSettings.layout, ChatSettings.layout, NexmoSettings.layout,
    TwilioSettings.layout, MailgunSettings.layout, PostmarkSettings.layout, GoogleSettings.layout,
    Layout.sections, Json.Section.under]

/-- A value holds settings: every object in the place of a section has only that section's keys, each
once, and every value in the place of a setting means something there. -/
structure Suits (j : Json) : Prop where
  keys : ∀ c ∈ (layout .strict).sections, ∀ members, j.at? c.path = some (.object members) →
    (∀ m ∈ members, m.1 ∈ c.keys) ∧ (members.map (·.1)).Nodup
  values : ∀ ℓ ∈ (layout .strict).leaves, ∀ v, j.at? ℓ.path = some v → ∃ a, ℓ.kind.Means v a

variable {j : Json}

theorem suits_iff :
    Suits j ↔ (∀ c ∈ (layout .strict).sections, c.Admits j) ∧
      ∀ ℓ ∈ (layout .strict).leaves, ℓ.Fits j := by
  have hadmits : (∀ c ∈ (layout .strict).sections, c.Admits j) ↔
      ∀ c ∈ (layout .strict).sections, ∀ members, j.at? c.path = some (.object members) →
        (∀ m ∈ members, m.1 ∈ c.keys) ∧ (members.map (·.1)).Nodup :=
    forall₂_congr fun c hc => by
      simp only [Json.Section.Admits, strict_sections c hc, Json.Tolerance.strict_admits_iff]
  rw [hadmits]
  exact ⟨fun h => ⟨h.keys, h.values⟩, fun h => ⟨h.1, h.2⟩⟩

/-- From a value whose sections are objects, settings can be read exactly if it suits; an unknown key
anywhere refuses all of it.  Every setting is then what is given for it, or else its default.  So a
setting depends on nothing but what is given for it, and the order of the keys does not matter. -/
theorem read_strictly (h : ∀ c ∈ (layout .strict).sections, c.IsObject j) :
    ((∃ s, reader .strict j.tree = .ok s) ↔ Suits j) ∧
    (∀ c ∈ (layout .strict).sections, ∀ members, j.at? c.path = some (.object members) →
      (∃ m ∈ members, m.1 ∉ c.keys) → ∃ e, reader .strict j.tree = .error e) ∧
    (∀ s, reader .strict j.tree = .ok s →
      ∀ ℓ ∈ (layout .strict).leaves, ℓ.Holds standard (j.at? ℓ.path) s) ∧
    (∀ s, reader .strict j.tree = .ok s → ∀ (j' : Json) (s' : ServiceSettings), reader .strict j'.tree = .ok s' →
      ∀ ℓ ∈ (layout .strict).leaves, j.at? ℓ.path = j'.at? ℓ.path → ℓ.get s = ℓ.get s') ∧
    (∀ s, reader .strict j.tree = .ok s → ∀ j' : Json,
      (∀ c ∈ (layout .strict).sections, c.IsObject j') →
      (∀ c ∈ (layout .strict).sections, c.Reorders j j') →
      (∀ ℓ ∈ (layout .strict).leaves, j.at? ℓ.path = j'.at? ℓ.path) →
      reader .strict j'.tree = .ok s) := by
  have hdecides := (layout .strict).decides h
  refine ⟨hdecides.trans suits_iff.symm, fun c hc members hmembers ⟨m, hm, hunknown⟩ => ?_,
    fun s hs => (layout .strict).tells hs, fun s hs j' s' hs' ℓ hℓ hat => ?_,
    fun s hs j' h' hkeys hleaves => ?_⟩
  · cases hread : reader .strict j.tree with
    | error e => exact ⟨e, rfl⟩
    | ok s =>
      have hstrict : c.tolerance.unknownMembers = false := by rw [strict_sections c hc]; rfl
      exact absurd hread (Layout.ne_ok_of_unknown h hc hstrict hmembers hm hunknown s)
  · exact Layout.get_eq_of_at (L := layout .strict) hs hs' hℓ hat
  · exact Layout.reader_of_reordered h h' hkeys hleaves hs

/-- Settings with one key for Postmark. -/
def sampleValue (key : String) : Json :=
  .object [
    ("sync_bridges", .array [.string "slack"]),
    ("fetch_timeout_ms", .int 500),
    ("providers", .object [("postmark", .object [(key, .string "tok")])])]

theorem sampleValue_sections (key : String) :
    ∀ c ∈ (layout .strict).sections, c.IsObject (sampleValue key) := by
  simp [sampleValue, layout, ProviderSettings.layout, ChatSettings.layout, NexmoSettings.layout,
    TwilioSettings.layout, MailgunSettings.layout, PostmarkSettings.layout, GoogleSettings.layout,
    Layout.sections, Json.Section.under, Json.Section.IsObject, Json.at?, Json.step?, List.lookup_cons]

/-- A key that is misspelled is not passed over, and what is not given is as by default. -/
theorem read_strictly_postmark :
    Suits (sampleValue "server_token") ∧
    (∃ s, reader .strict (sampleValue "server_token").tree = .ok s ∧ s.fetchTimeoutMs = 500 ∧
      s.attemptTimeoutMs = 10000) ∧
    ∃ e, reader .strict (sampleValue "servertoken").tree = .error e := by
  obtain ⟨hreads, -, htells, -⟩ := read_strictly (sampleValue_sections "server_token")
  obtain ⟨-, hunknown, -⟩ := read_strictly (sampleValue_sections "servertoken")
  have hread : ∃ s, reader .strict (sampleValue "server_token").tree = .ok s := ⟨_, rfl⟩
  refine ⟨hreads.1 hread, ?_, ?_⟩
  · obtain ⟨s, hs⟩ := hread
    have hattempt : s.attemptTimeoutMs = 10000 :=
      htells s hs _ (List.mem_of_getElem? (i := 0) rfl)
    have hfetch : Json.int 500 = .int s.fetchTimeoutMs ∧ _ :=
      htells s hs _ (List.mem_of_getElem? (i := 1) rfl)
    refine ⟨s, hs, ?_, hattempt⟩
    exact (Int.ofNat.inj (Json.int.inj hfetch.1)).symm
  · exact hunknown _ (List.mem_of_getElem? (i := 7) rfl) _ rfl
      ⟨("servertoken", .string "tok"), by simp, by decide⟩

end ServiceSettings

end Concierge
