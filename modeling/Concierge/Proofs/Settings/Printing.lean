import Concierge.Proofs.Json.Printed
import Concierge.Proofs.Settings.Layouts
import Mathlib.Tactic.TFAE

/-!
# What printed settings tell

Settings are written without their secrets and with everything else.  What is written is read back as
the settings without secrets, so two settings are written alike if and only if they are the same
without their secrets.
-/

namespace Concierge

open Json (Kind Layout Part Tolerance Reader integral integralItems integralMembers)

/-! ## Values that are written and read -/

namespace Json.Reader

@[simp] theorem text_string (s : String) : text (tree (.string s)) = .ok s := rfl

@[simp] theorem option_text_optional (o : Option String) :
    option text (tree (.optional o)) = .ok o := by
  cases o <;> rfl

theorem natBelow_nat {bound n : Nat} (hbound : bound ≤ Width.count 64) (h : n < bound) :
    natBelow bound (tree (.nat n)) = .ok n :=
  natBelow_eq_ok_iff.2 ⟨tree_nat (h.trans_le hbound), h⟩

theorem word64_nat {n : Nat} (h : n < Width.count 64) : word64 (tree (.nat n)) = .ok n :=
  natBelow_nat (Nat.le_refl _) h

theorem variantWith_string {α : Type} {payload : Reader Unit} {surplus : Bool}
    {names : List (String × α)} {key : String} {a : α} (h : names.lookup key = some a) :
    variantWith payload surplus names (tree (.string key)) = .ok a := by
  simp only [tree, variantWith, h]

/-- A list is read back if its items are. -/
theorem list_map {α : Type} {r : Reader α} {write : α → Json}
    (h : ∀ a, r (tree (write a)) = .ok a) (as : List α) :
    list r (tree (.array (as.map write))) = .ok as := by
  refine list_eq_ok_iff.2 ⟨_, rfl, ?_⟩
  rw [treeItems_eq_map, List.map_map, List.forall₂_map_left_iff, List.forall₂_same]
  exact fun a _ => h a

end Json.Reader

theorem Json.integral_array_map {α : Type} {write : α → Json} (h : ∀ a, integral (write a) = true)
    (as : List α) : integral (.array (as.map write)) = true := by
  rw [integral]
  induction as with
  | nil => rfl
  | cons a rest ih => rw [List.map_cons, integralItems, h, ih]; rfl

theorem Bridge.list_toJson (surplus : Bool) (bridges : List Bridge) :
    Reader.list (.variantWith .unit surplus names) (Json.tree (.array (bridges.map toJson))) =
      .ok bridges :=
  Reader.list_map (fun b => Reader.variantWith_string (ofName?_name b)) bridges

theorem Bridge.integral_list (bridges : List Bridge) :
    integral (.array (bridges.map toJson)) = true :=
  Json.integral_array_map (fun _ => rfl) bridges

theorem MatchKey.lookup_name (k : MatchKey) : names.lookup k.name = some k := by
  cases k <;> decide

theorem LogFormat.lookup_name (f : LogFormat) : names.lookup f.name = some f := by
  cases f <;> decide

/-! ## Settings without secrets -/

/-- The settings with every secret taken out. -/
def ProviderSettings.withoutSecrets (s : ProviderSettings) : ProviderSettings where
  emailFrom := s.emailFrom
  hipchat := { s.hipchat with token := none }
  slack := { s.slack with token := none }
  nexmo := { s.nexmo with apiSecret := none }
  twilio := { s.twilio with authToken := none }
  mailgun := { s.mailgun with apiKey := none }
  postmark := { s.postmark with serverToken := none }
  googleDirectory := s.googleDirectory

/-- The settings with every secret taken out. -/
def ServiceSettings.withoutSecrets (s : ServiceSettings) : ServiceSettings :=
  { s with providers := s.providers.withoutSecrets }

/-- The settings with every secret taken out. -/
def ProgramSettings.withoutSecrets (s : ProgramSettings) : ProgramSettings :=
  { s with service := s.service.withoutSecrets }

theorem ProviderSettings.secrets_withoutSecrets (s : ProviderSettings) :
    s.withoutSecrets.secrets = s.secrets.map fun (place, _) => (place, none) := rfl

/-- Settings are the secrets and the settings without them. -/
theorem ProviderSettings.eq_iff {s t : ProviderSettings} :
    s = t ↔ s.withoutSecrets = t.withoutSecrets ∧ s.secrets = t.secrets := by
  refine ⟨by rintro rfl; exact ⟨rfl, rfl⟩, fun ⟨h, hsecrets⟩ => ?_⟩
  obtain ⟨_, ⟨_, _⟩, ⟨_, _⟩, ⟨_, _, _, _⟩, ⟨_, _, _, _⟩, ⟨_, _, _⟩, ⟨_, _⟩, _⟩ := s
  obtain ⟨_, ⟨_, _⟩, ⟨_, _⟩, ⟨_, _, _, _⟩, ⟨_, _, _, _⟩, ⟨_, _, _⟩, ⟨_, _⟩, _⟩ := t
  simp_all [withoutSecrets, secrets]

/-- The numbers of the settings are numbers of their widths. -/
structure ServiceSettings.InRange (s : ServiceSettings) : Prop where
  attemptTimeoutMs : s.attemptTimeoutMs < Width.count 64
  fetchTimeoutMs : s.fetchTimeoutMs < Width.count 64

/-- The numbers of the settings are numbers of their widths. -/
structure ProgramSettings.InRange (s : ProgramSettings) : Prop where
  port : s.server.port < ServerSettings.portBound
  requestTimeoutMs : s.server.requestTimeoutMs < Width.count 64
  maxConnections : s.database.maxConnections < Width.count 32
  service : s.service.InRange

theorem ProgramSettings.inRange_standard : standard.InRange :=
  ⟨by decide, by decide, by decide, by decide, by decide⟩

variable {tolerance : Tolerance}

/-- What holds of whatever a value can mean for a leaf, and of its default, holds of the leaf. -/
theorem Json.Leaf.Holds.property {σ : Type} {ℓ : Json.Leaf σ} {standard s : σ} {there : Option Json}
    (h : ℓ.Holds standard there s) {P : ℓ.α → Prop} (hmeans : ∀ v a, ℓ.kind.Means v a → P a)
    (hstandard : P (ℓ.get standard)) : P (ℓ.get s) := by
  cases there with
  | none =>
    have hget : ℓ.get s = ℓ.get standard := h
    rwa [hget]
  | some v => exact hmeans v _ h

/-- All settings that are read are in range. -/
theorem ProgramSettings.inRange_of_reader {j : Json} {s : ProgramSettings}
    (h : reader tolerance j.tree = .ok s) : s.InRange := by
  have htells (place : Nat) {ℓ} (hℓ : (layout tolerance).leaves[place]? = some ℓ) :
      ℓ.Holds standard (j.at? ℓ.path) s := (layout tolerance).tells h ℓ (List.mem_of_getElem? hℓ)
  have hstandard := inRange_standard
  refine ⟨?_, ?_, ?_, ?_, ?_⟩
  · exact (htells 1 rfl).property (P := fun n : Nat => n < _) (fun _ _ h => h.2) hstandard.port
  · exact (htells 2 rfl).property (P := fun n : Nat => n < _) (fun _ _ h => h.2)
      hstandard.requestTimeoutMs
  · exact (htells 4 rfl).property (P := fun n : Nat => n < _) (fun _ _ h => h.2)
      hstandard.maxConnections
  · exact (htells 7 rfl).property (P := fun n : Nat => n < _) (fun _ _ h => h.2)
      hstandard.service.attemptTimeoutMs
  · exact (htells 8 rfl).property (P := fun n : Nat => n < _) (fun _ _ h => h.2)
      hstandard.service.fetchTimeoutMs

/-! ## Sections are read back without secrets -/

theorem ChatSettings.reader_toJson {d : ChatSettings} (hd : d.token = none) (s : ChatSettings) :
    reader tolerance d s.toJson.tree = .ok { s with token := none } := by
  refine (layout tolerance d).reader_written (by simp [layout, Layout.keys]) ?_
  simp [layout, Part.Given, hd, List.lookup_cons]

theorem NexmoSettings.reader_toJson (s : NexmoSettings) :
    reader tolerance s.toJson.tree = .ok { s with apiSecret := none } := by
  refine (layout tolerance).reader_written (by simp [layout, Layout.keys]) ?_
  simp [layout, Part.Given, standard, List.lookup_cons]

theorem TwilioSettings.reader_toJson (s : TwilioSettings) :
    reader tolerance s.toJson.tree = .ok { s with authToken := none } := by
  refine (layout tolerance).reader_written (by simp [layout, Layout.keys]) ?_
  simp [layout, Part.Given, standard, List.lookup_cons]

theorem MailgunSettings.reader_toJson (s : MailgunSettings) :
    reader tolerance s.toJson.tree = .ok { s with apiKey := none } := by
  refine (layout tolerance).reader_written (by simp [layout, Layout.keys]) ?_
  simp [layout, Part.Given, standard, List.lookup_cons]

theorem PostmarkSettings.reader_toJson (s : PostmarkSettings) :
    reader tolerance s.toJson.tree = .ok { s with serverToken := none } := by
  refine (layout tolerance).reader_written (by simp [layout, Layout.keys]) ?_
  simp [layout, Part.Given, standard, List.lookup_cons]

theorem GoogleSettings.reader_toJson (s : GoogleSettings) :
    reader tolerance s.toJson.tree = .ok s := by
  refine (layout tolerance).reader_written (by simp [layout, Layout.keys]) ?_
  simp [layout, Part.Given, standard, List.lookup_cons]

theorem ProviderSettings.reader_toJson (s : ProviderSettings) :
    reader tolerance s.toJson.tree = .ok s.withoutSecrets := by
  refine (layout tolerance).reader_written (by simp [layout, Layout.keys]) ?_
  simp [layout, Part.Given, withoutSecrets, List.lookup_cons,
    ChatSettings.reader_toJson (d := .hipchat) rfl, ChatSettings.reader_toJson (d := .slack) rfl,
    NexmoSettings.reader_toJson, TwilioSettings.reader_toJson, MailgunSettings.reader_toJson,
    PostmarkSettings.reader_toJson, GoogleSettings.reader_toJson]

theorem ServiceSettings.reader_toJson {s : ServiceSettings} (h : s.InRange) :
    reader tolerance s.toJson.tree = .ok s.withoutSecrets := by
  refine (layout tolerance).reader_written (by simp [layout, Layout.keys]) ?_
  simp [layout, Part.Given, withoutSecrets, List.lookup_cons,
    Reader.word64_nat h.attemptTimeoutMs, Reader.word64_nat h.fetchTimeoutMs, Bridge.list_toJson,
    Reader.variantWith_string (MatchKey.lookup_name _), ProviderSettings.reader_toJson]

theorem ServerSettings.reader_toJson {s : ServerSettings} (hport : s.port < portBound)
    (htimeout : s.requestTimeoutMs < Width.count 64) : reader tolerance s.toJson.tree = .ok s := by
  refine (layout tolerance).reader_written (by simp [layout, Layout.keys]) ?_
  simp [layout, Part.Given, List.lookup_cons, Reader.word64_nat htimeout,
    Reader.natBelow_nat (by decide : portBound ≤ Width.count 64) hport]

theorem DatabaseSettings.reader_toJson {s : DatabaseSettings}
    (h : s.maxConnections < Width.count 32) : reader tolerance s.toJson.tree = .ok s := by
  refine (layout tolerance).reader_written (by simp [layout, Layout.keys]) ?_
  simp [layout, Part.Given, List.lookup_cons,
    Reader.natBelow_nat (by decide : Width.count 32 ≤ Width.count 64) h]

theorem LoggingSettings.reader_toJson (s : LoggingSettings) :
    reader tolerance s.toJson.tree = .ok s := by
  refine (layout tolerance).reader_written (by simp [layout, Layout.keys]) ?_
  simp [layout, Part.Given, List.lookup_cons,
    Reader.variantWith_string (LogFormat.lookup_name _)]

theorem ProgramSettings.reader_toJson {s : ProgramSettings} (h : s.InRange) :
    reader tolerance s.toJson.tree = .ok s.withoutSecrets := by
  refine (layout tolerance).reader_written (by simp [layout, Layout.keys]) ?_
  simp [layout, Part.Given, withoutSecrets, List.lookup_cons,
    ServerSettings.reader_toJson h.port h.requestTimeoutMs,
    DatabaseSettings.reader_toJson h.maxConnections, LoggingSettings.reader_toJson,
    ServiceSettings.reader_toJson h.service]

/-! ## What is written of settings -/

theorem ProviderSettings.integral_toJson (s : ProviderSettings) : integral s.toJson = true := by
  simp [toJson, ChatSettings.toJson, NexmoSettings.toJson, TwilioSettings.toJson,
    MailgunSettings.toJson, PostmarkSettings.toJson, GoogleSettings.toJson, integral, integralMembers]

theorem ServiceSettings.integral_toJson {s : ServiceSettings} (h : s.InRange) :
    integral s.toJson = true := by
  have hattempt := Json.integral_nat h.attemptTimeoutMs
  have hfetch := Json.integral_nat h.fetchTimeoutMs
  have hbridges := Bridge.integral_list s.syncBridges
  rw [toJson, integral]
  simp only [integralMembers, hattempt, hfetch, hbridges, s.providers.integral_toJson]
  rfl

theorem ProgramSettings.integral_toJson {s : ProgramSettings} (h : s.InRange) :
    integral s.toJson = true := by
  have hport := Json.integral_nat (h.port.trans_le (by decide : _ ≤ Width.count 64))
  have htimeout := Json.integral_nat h.requestTimeoutMs
  have hconnections := Json.integral_nat (h.maxConnections.trans_le (by decide : _ ≤ Width.count 64))
  simp [toJson, ServerSettings.toJson, DatabaseSettings.toJson, LoggingSettings.toJson, integral,
    integralMembers, hport, htimeout, hconnections, ServiceSettings.integral_toJson h.service]

/-- Where values are read back as what is left of them, they are written alike, in either text, if and
only if the same is left of them. -/
theorem Json.written_alike {σ : Type} (r : Reader σ) {written : σ → Json} {left : σ → σ} {s t : σ}
    (hleft : ∀ s, written (left s) = written s)
    (hs : integral (written s) = true ∧ r (tree (written s)) = .ok (left s))
    (ht : integral (written t) = true ∧ r (tree (written t)) = .ok (left t)) :
    List.TFAE [left s = left t, written s = written t, (written s).compact = (written t).compact,
      (written s).indented = (written t).indented] := by
  tfae_have 1 → 2 := fun h => by rw [← hleft s, h, hleft]
  tfae_have 2 → 3 := congrArg compact
  tfae_have 2 → 4 := congrArg indented
  tfae_have 3 → 1 := fun h => by
    have htext := readText_compact r hs.1
    rw [h, readText_compact r ht.1, hs.2, ht.2] at htext
    exact (Except.ok.inj htext).symm
  tfae_have 4 → 1 := fun h => by
    have htext := readText_indented r hs.1
    rw [h, readText_indented r ht.1, hs.2, ht.2] at htext
    exact (Except.ok.inj htext).symm
  tfae_finish

/-- Either text is read back as the value itself is. -/
theorem Json.readText_written {σ : Type} (r : Reader σ) {j : Json} (h : integral j = true) :
    ∀ text ∈ [j.compact, j.indented], readText r (Utf8.encode text) = r (tree j) := by
  simp [readText_compact r h, readText_indented r h]

/-- Settings of the service and of the program are written alike if and only if they are the same
without their secrets, and what is written is read back as the settings without secrets. -/
theorem settings_printed_all_but_secrets :
    (∀ s t : ServiceSettings, s.InRange → t.InRange →
      List.TFAE [s.withoutSecrets = t.withoutSecrets, s.toJson = t.toJson,
        s.toJson.compact = t.toJson.compact, s.toJson.indented = t.toJson.indented]) ∧
    (∀ s : ServiceSettings, s.InRange → ∀ text ∈ [s.toJson.compact, s.toJson.indented],
      Json.readText (ServiceSettings.reader .strict) (Utf8.encode text) = .ok s.withoutSecrets) ∧
    (∀ s t : ProgramSettings, s.InRange → t.InRange →
      List.TFAE [s.withoutSecrets = t.withoutSecrets, s.toJson = t.toJson,
        s.toJson.compact = t.toJson.compact, s.toJson.indented = t.toJson.indented]) ∧
    (∀ s : ProgramSettings, s.InRange → ∀ text ∈ [s.toJson.compact, s.toJson.indented],
      Json.readText (ProgramSettings.reader .strict) (Utf8.encode text) = .ok s.withoutSecrets) := by
  refine ⟨fun s t hs ht => ?_, fun s hs text htext => ?_, fun s t hs ht => ?_,
    fun s hs text htext => ?_⟩
  · exact Json.written_alike (ServiceSettings.reader .strict) (fun _ => rfl)
      ⟨ServiceSettings.integral_toJson hs, ServiceSettings.reader_toJson hs⟩
      ⟨ServiceSettings.integral_toJson ht, ServiceSettings.reader_toJson ht⟩
  · rw [Json.readText_written _ (ServiceSettings.integral_toJson hs) text htext,
      ServiceSettings.reader_toJson hs]
  · exact Json.written_alike (ProgramSettings.reader .strict) (fun _ => rfl)
      ⟨ProgramSettings.integral_toJson hs, ProgramSettings.reader_toJson hs⟩
      ⟨ProgramSettings.integral_toJson ht, ProgramSettings.reader_toJson ht⟩
  · rw [Json.readText_written _ (ProgramSettings.integral_toJson hs) text htext,
      ProgramSettings.reader_toJson hs]

/-- Settings with a secret for Slack. -/
def ProgramSettings.withSlackToken (token : String) : ProgramSettings :=
  { standard with
    service := { ServiceSettings.standard with
      providers := { ProviderSettings.standard with
        slack := ⟨"https://slack.com", some ⟨token⟩⟩ } } }

theorem settings_printed_all_but_secrets_slack :
    (ProgramSettings.withSlackToken "xoxb-1").toJson.indented =
        (ProgramSettings.withSlackToken "xoxb-2").toJson.indented ∧
      Json.readText (ProgramSettings.reader .strict)
        (Utf8.encode (ProgramSettings.withSlackToken "xoxb-1").toJson.indented) = .ok .standard ∧
      Json.readText (ServiceSettings.reader .strict)
        (Utf8.encode (ProgramSettings.withSlackToken "xoxb-1").service.toJson.compact) =
          .ok .standard := by
  have hstandard := ProgramSettings.inRange_standard
  have hrange (token : String) : (ProgramSettings.withSlackToken token).InRange :=
    ⟨hstandard.port, hstandard.requestTimeoutMs, hstandard.maxConnections,
      hstandard.service.attemptTimeoutMs, hstandard.service.fetchTimeoutMs⟩
  obtain ⟨-, hservice, halike, hprogram⟩ := settings_printed_all_but_secrets
  exact ⟨((halike _ _ (hrange "xoxb-1") (hrange "xoxb-2")).out 0 3).1 rfl,
    hprogram _ (hrange "xoxb-1") _ (by simp), hservice _ (hrange "xoxb-1").service _ (by simp)⟩

end Concierge
