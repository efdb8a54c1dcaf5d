import Concierge.Proofs.Json.Rearranged
import Concierge.Proofs.Settings.Printing
import Concierge.Proofs.Uuid

/-!
# Written forms of records

For each type of values that are written as JSON: what is written of a value is read back as that
value, from the value and from its texts, and it does not matter how the objects of records are
arranged.  Where a record has other records in its fields, they are records of this module again.
-/

namespace Concierge

open Json (Reader Fields Shape Tree integral integralMembers readText record tree)
open Json.Fields (map_build_eq_ok_iff optional_build_eq_ok_iff optional required
  required_build_eq_ok_iff seq_build_eq_ok_iff)

/-- What is read from a text is read from a tree. -/
theorem Json.exists_of_readText {α : Type} {r : Reader α} {bytes : List UInt8} {a : α}
    (h : readText r bytes = .ok a) : ∃ t, r t = .ok a := by
  unfold readText at h
  split at h
  · next t _ => cases hr : r t <;> simp [hr] at h
  · next t rest _ =>
    cases hr : r t with
    | error e => simp [hr] at h
    | ok b =>
      simp only [hr] at h
      split at h
      · exact ⟨t, hr.trans h⟩
      · cases h

/-- How the values of a type are written and read. -/
structure Form (α : Type) where
  write : α → Json
  read : Reader α
  /-- Where a value has the objects of records. -/
  shape : Shape
  /-- The numbers of a value are numbers of their widths. -/
  InRange : α → Prop := fun _ => True
  /-- How deeply nested a value may be to be read, if it is taken in whole first; every literal in it has
  to denote something then. -/
  limit : Option Nat := none

namespace Form

variable {α : Type}

/-- A value can be taken in whole, if it has to be. -/
def Within (f : Form α) (t : Tree) : Prop := ∀ n ∈ f.limit, t.Bears n

/-- Writing and reading keep to each other. -/
structure Faithful (f : Form α) : Prop where
  /-- A value is read back from what is written of it. -/
  readsBack {a : α} : f.InRange a → f.read (tree (f.write a)) = .ok a
  /-- So it is from the compact and from the indented text. -/
  readsBackText {a : α} : f.InRange a →
    ∀ text ∈ [(f.write a).compact, (f.write a).indented],
      readText f.read (Utf8.encode text) = .ok a
  /-- The order of members and members that no field knows do not matter. -/
  indifferent {t t' : Tree} : f.shape.Rearranges t t' → f.Within t' →
    ∀ a, f.read t = .ok a ↔ f.read t' = .ok a
  /-- Whatever a value was read from, it can be written, and is then read back. -/
  settles {t : Tree} {a : α} : f.read t = .ok a →
    f.InRange a ∧ f.read (tree (f.write a)) = .ok a
  /-- So it is whatever text it was read from. -/
  settlesText {bytes : List UInt8} {a : α} : readText f.read bytes = .ok a →
    ∀ text ∈ [(f.write a).compact, (f.write a).indented],
      readText f.read (Utf8.encode text) = .ok a
  /-- Nothing is read from what cannot be taken in whole where it has to be. -/
  limited {t : Tree} {a : α} : f.read t = .ok a → f.Within t

/-- Reading keeps to writing if what is read is in range and is read back, as long as its arrangement
does not matter within the limit. -/
theorem Faithful.of_back {f : Form α} (hinRange : ∀ t a, f.read t = .ok a → f.InRange a)
    (hback : ∀ a, f.InRange a → f.read (tree (f.write a)) = .ok a)
    (hintegral : ∀ a, f.InRange a → integral (f.write a) = true)
    (hindifferent : ∀ t t', f.shape.Rearranges t t' → f.Within t' →
      ∀ a, f.read t = .ok a ↔ f.read t' = .ok a)
    (hlimited : ∀ t a, f.read t = .ok a → f.Within t) : f.Faithful := by
  have htexts (a : α) (ha : f.InRange a) : ∀ text ∈ [(f.write a).compact, (f.write a).indented],
      readText f.read (Utf8.encode text) = .ok a := fun text htext => by
    rw [Json.readText_written f.read (hintegral a ha) text htext, hback a ha]
  exact {
    readsBack := hback _
    readsBackText := htexts _
    indifferent := hindifferent _ _
    settles := fun h => ⟨hinRange _ _ h, hback _ (hinRange _ _ h)⟩
    settlesText := fun h =>
      let ⟨_, ht⟩ := Json.exists_of_readText h
      htexts _ (hinRange _ _ ht)
    limited := hlimited _ _ }

variable {write : α → Json} {read : Reader α} {shape : Shape} [hread : read.Indifferent shape]

theorem Faithful.of_inRange {InRange : α → Prop} (hinRange : ∀ t a, read t = .ok a → InRange a)
    (hback : ∀ a, InRange a → read (tree (write a)) = .ok a)
    (hintegral : ∀ a, InRange a → integral (write a) = true) :
    ({ write, read, shape, InRange } : Form α).Faithful :=
  of_back hinRange hback hintegral (fun _ _ h _ => hread.ok_iff h) fun _ _ _ _ hn => nomatch hn

theorem Faithful.of_all (hback : ∀ a, read (tree (write a)) = .ok a)
    (hintegral : ∀ a, integral (write a) = true) : ({ write, read, shape } : Form α).Faithful :=
  of_inRange (fun _ _ _ => trivial) (fun a _ => hback a) fun a _ => hintegral a

end Form

/-! ## Identifiers and names -/

/-- The form of identifiers. -/
def Uuid.form : Form Uuid where
  write := toJson
  read := reader
  shape := .single

/-- The form of channels. -/
def Channel.form : Form Channel where
  write := toJson
  read := reader
  shape := .single

/-- The form of bridges. -/
def Bridge.form : Form Bridge where
  write := toJson
  read := reader
  shape := .single

@[simp] theorem Uuid.integral_toJson (id : Uuid) : integral id.toJson = true := rfl

@[simp] theorem Channel.integral_toJson (c : Channel) : integral c.toJson = true := rfl

@[simp] theorem Bridge.integral_toJson (b : Bridge) : integral b.toJson = true := rfl

theorem Uuid.reader_of_ofText? {s : String} {id : Uuid} (h : ofText? s = some id) :
    reader (tree (.string s)) = .ok id := by
  simp only [reader, Reader.refine, Reader.text_string, h]

@[simp] theorem Uuid.reader_toJson (id : Uuid) : reader (tree id.toJson) = .ok id :=
  reader_of_ofText? (ofText?_toText id)

@[simp] theorem Channel.reader_toJson (c : Channel) : reader (tree c.toJson) = .ok c := by
  rw [reader, Reader.variant, toJson, Reader.variantWith_string (ofName?_name c)]

@[simp] theorem Bridge.reader_toJson (b : Bridge) : reader (tree b.toJson) = .ok b := by
  rw [reader, Reader.variant, toJson, Reader.variantWith_string (ofName?_name b)]

theorem Uuid.form_faithful : Uuid.form.Faithful := .of_all reader_toJson integral_toJson

theorem Channel.form_faithful : Channel.form.Faithful := .of_all reader_toJson integral_toJson

theorem Bridge.form_faithful : Bridge.form.Faithful := .of_all reader_toJson integral_toJson

/-- Identifiers are read from the spellings of 32 digits, and are written as these digits in lower
case, hyphenated. -/
theorem Uuid.reader_eq_ok_iff {t : Tree} {id : Uuid} :
    reader t = .ok id ↔ ∃ s ds, t = .string (some s) ∧ AreDigits ds ∧ s.toList ∈ spellings ds ∧
      id.toText = String.ofList (hyphenated (ds.map Char.toLower)) := by
  have hread : reader t = .ok id ↔ ∃ s, t = .string (some s) ∧ ofChars? s.toList = some id := by
    rw [reader, Reader.refine]
    simp only [← Reader.text_eq_ok_iff]
    cases Reader.text t with
    | error e => simp
    | ok s => cases hid : ofText? s <;> simp_all [ofText?]
  simp only [hread, ofChars?_eq_some_iff, exists_and_left, toText, String.ofList_inj]

@[simp] theorem Json.Reader.bool_bool (b : Bool) : bool (tree (.bool b)) = .ok b := rfl

/-! ## Accounts -/

/-- The form of switches. -/
def ChannelSwitch.form : Form ChannelSwitch where
  write := toJson
  read := reader
  shape := .record [("enabled", .single), ("token", .single)]

instance : ChannelSwitch.reader.Indifferent ChannelSwitch.form.shape :=
  Fields.Shaped.indifferent (by decide)

@[simp] theorem ChannelSwitch.reader_toJson (s : ChannelSwitch) :
    reader (tree s.toJson) = .ok s := by
  refine Fields.Shaped.read_fields (by decide) rfl ?_
  simp [map_build_eq_ok_iff, seq_build_eq_ok_iff, required_build_eq_ok_iff,
    optional_build_eq_ok_iff, List.lookup_cons]

@[simp] theorem ChannelSwitch.integral_toJson (s : ChannelSwitch) : integral s.toJson = true := by
  simp [toJson, integral, integralMembers]

theorem ChannelSwitch.form_faithful : ChannelSwitch.form.Faithful :=
  .of_all reader_toJson integral_toJson

/-- The form of notification settings. -/
def NotificationSettings.form : Form NotificationSettings where
  write := toJson
  read := reader
  shape := .record [
    ("enabled", .single), ("hipchat", ChannelSwitch.form.shape),
    ("slack", ChannelSwitch.form.shape), ("nexmo", ChannelSwitch.form.shape),
    ("twilio", ChannelSwitch.form.shape), ("mailgun", ChannelSwitch.form.shape),
    ("postmark", ChannelSwitch.form.shape), ("sms_template", .single), ("email_template", .single),
    ("twilio_source_phone_number", .single)]

instance : NotificationSettings.reader.Indifferent NotificationSettings.form.shape :=
  Fields.Shaped.indifferent (by decide)

@[simp] theorem NotificationSettings.reader_toJson (s : NotificationSettings) :
    reader (tree s.toJson) = .ok s := by
  refine Fields.Shaped.read_fields (by decide) rfl ?_
  simp [map_build_eq_ok_iff, seq_build_eq_ok_iff, required_build_eq_ok_iff,
    optional_build_eq_ok_iff, List.lookup_cons]

@[simp] theorem NotificationSettings.integral_toJson (s : NotificationSettings) :
    integral s.toJson = true := by
  simp [toJson, integral, integralMembers]

theorem NotificationSettings.form_faithful : NotificationSettings.form.Faithful :=
  .of_all reader_toJson integral_toJson

/-- The form of hub settings. -/
def HubSettings.form : Form HubSettings where
  write := toJson
  read := reader
  shape := .record [("enabled", .single), ("url", .single), ("token", .single)]

instance : HubSettings.reader.Indifferent HubSettings.form.shape :=
  Fields.Shaped.indifferent (by decide)

@[simp] theorem HubSettings.reader_toJson (s : HubSettings) : reader (tree s.toJson) = .ok s := by
  refine Fields.Shaped.read_fields (by decide) rfl ?_
  simp [map_build_eq_ok_iff, seq_build_eq_ok_iff, required_build_eq_ok_iff,
    optional_build_eq_ok_iff, List.lookup_cons]

@[simp] theorem HubSettings.integral_toJson (s : HubSettings) : integral s.toJson = true := by
  simp [toJson, integral, integralMembers]

theorem HubSettings.form_faithful : HubSettings.form.Faithful :=
  .of_all reader_toJson integral_toJson

/-- The form of bridge settings. -/
def BridgeSettings.form : Form BridgeSettings where
  write := toJson
  read := reader
  shape := .record [
    ("hub", HubSettings.form.shape), ("google_directory", ChannelSwitch.form.shape),
    ("hipchat", ChannelSwitch.form.shape), ("slack", ChannelSwitch.form.shape)]

instance : BridgeSettings.reader.Indifferent BridgeSettings.form.shape :=
  Fields.Shaped.indifferent (by decide)

@[simp] theorem BridgeSettings.reader_toJson (s : BridgeSettings) :
    reader (tree s.toJson) = .ok s := by
  refine Fields.Shaped.read_fields (by decide) rfl ?_
  simp [map_build_eq_ok_iff, seq_build_eq_ok_iff, required_build_eq_ok_iff, List.lookup_cons]

@[simp] theorem BridgeSettings.integral_toJson (s : BridgeSettings) : integral s.toJson = true := by
  simp [toJson, integral, integralMembers]

theorem BridgeSettings.form_faithful : BridgeSettings.form.Faithful :=
  .of_all reader_toJson integral_toJson

/-- The form of accounts. -/
def Account.form : Form Account where
  write := toJson
  read := reader
  shape := .record [
    ("id", .single), ("name", .single), ("host", .single), ("contact_name", .single),
    ("contact_email", .single), ("notifications", NotificationSettings.form.shape),
    ("bridges", BridgeSettings.form.shape)]

instance : Account.reader.Indifferent Account.form.shape :=
  Fields.Shaped.indifferent (by decide)

@[simp] theorem Account.reader_toJson (a : Account) : reader (tree a.toJson) = .ok a := by
  refine Fields.Shaped.read_fields (by decide) rfl ?_
  simp [map_build_eq_ok_iff, seq_build_eq_ok_iff, required_build_eq_ok_iff, List.lookup_cons]

@[simp] theorem Account.integral_toJson (a : Account) : integral a.toJson = true := by
  simp [toJson, integral, integralMembers]

theorem Account.form_faithful : Account.form.Faithful := .of_all reader_toJson integral_toJson

/-! ## People and doors -/

/-- The form of preferences. -/
def NotificationPreferences.form : Form NotificationPreferences where
  write := toJson
  read := reader
  shape := .record [
    ("enabled", .single), ("app", .single), ("chat", .single), ("sms", .single),
    ("email", .single)]

instance : NotificationPreferences.reader.Indifferent NotificationPreferences.form.shape :=
  Fields.Shaped.indifferent (by decide)

@[simp] theorem NotificationPreferences.reader_toJson (p : NotificationPreferences) :
    reader (tree p.toJson) = .ok p := by
  refine Fields.Shaped.read_fields (by decide) rfl ?_
  simp [map_build_eq_ok_iff, seq_build_eq_ok_iff, required_build_eq_ok_iff, List.lookup_cons]

@[simp] theorem NotificationPreferences.integral_toJson (p : NotificationPreferences) :
    integral p.toJson = true := by
  simp [toJson, integral, integralMembers]

theorem NotificationPreferences.form_faithful : NotificationPreferences.form.Faithful :=
  .of_all reader_toJson integral_toJson

/-- The form of people. -/
def Person.form : Form Person where
  write := toJson
  read := reader
  shape := .record [
    ("id", .single), ("account_id", .single), ("name", .single), ("title", .single),
    ("email", .single), ("phone_number", .single), ("is_visible", .single),
    ("is_available", .single), ("notifications", NotificationPreferences.form.shape)]

instance : Person.reader.Indifferent Person.form.shape :=
  Fields.Shaped.indifferent (by decide)

@[simp] theorem Person.reader_toJson (p : Person) : reader (tree p.toJson) = .ok p := by
  refine Fields.Shaped.read_fields (by decide) rfl ?_
  simp [map_build_eq_ok_iff, seq_build_eq_ok_iff, required_build_eq_ok_iff, List.lookup_cons]

@[simp] theorem Person.integral_toJson (p : Person) : integral p.toJson = true := by
  simp [toJson, integral, integralMembers]

theorem Person.form_faithful : Person.form.Faithful := .of_all reader_toJson integral_toJson

/-- The form of doors. -/
def Door.form : Form Door where
  write := toJson
  read := reader
  shape := .record [("id", .single), ("account_id", .single), ("name", .single)]

instance : Door.reader.Indifferent Door.form.shape :=
  Fields.Shaped.indifferent (by decide)

@[simp] theorem Door.reader_toJson (d : Door) : reader (tree d.toJson) = .ok d := by
  refine Fields.Shaped.read_fields (by decide) rfl ?_
  simp [map_build_eq_ok_iff, seq_build_eq_ok_iff, required_build_eq_ok_iff, List.lookup_cons]

@[simp] theorem Door.integral_toJson (d : Door) : integral d.toJson = true := by
  simp [toJson, integral, integralMembers]

theorem Door.form_faithful : Door.form.Faithful := .of_all reader_toJson integral_toJson

/-! ## Remote users and links -/

/-- The form of remote users. -/
def RemoteUser.form : Form RemoteUser where
  write := toJson
  read := reader
  shape := .record [
    ("bridge", .single), ("external_id", .single), ("name", .single), ("email", .single),
    ("phone_number", .single), ("title", .single)]

instance : RemoteUser.reader.Indifferent RemoteUser.form.shape :=
  Fields.Shaped.indifferent (by decide)

@[simp] theorem RemoteUser.reader_toJson (u : RemoteUser) : reader (tree u.toJson) = .ok u := by
  refine Fields.Shaped.read_fields (by decide) rfl ?_
  simp [map_build_eq_ok_iff, seq_build_eq_ok_iff, required_build_eq_ok_iff, List.lookup_cons]

@[simp] theorem RemoteUser.integral_toJson (u : RemoteUser) : integral u.toJson = true := by
  simp [toJson, integral, integralMembers]

theorem RemoteUser.form_faithful : RemoteUser.form.Faithful := .of_all reader_toJson integral_toJson

/-- The form of links. -/
def BridgeLink.form : Form BridgeLink where
  write := toJson
  read := reader
  shape := .record [
    ("id", .single), ("account_id", .single), ("person_id", .single), ("bridge", .single),
    ("external_id", .single)]

instance : BridgeLink.reader.Indifferent BridgeLink.form.shape :=
  Fields.Shaped.indifferent (by decide)

@[simp] theorem BridgeLink.reader_toJson (l : BridgeLink) : reader (tree l.toJson) = .ok l := by
  refine Fields.Shaped.read_fields (by decide) rfl ?_
  simp [map_build_eq_ok_iff, seq_build_eq_ok_iff, required_build_eq_ok_iff, List.lookup_cons]

@[simp] theorem BridgeLink.integral_toJson (l : BridgeLink) : integral l.toJson = true := by
  simp [toJson, integral, integralMembers]

theorem BridgeLink.form_faithful : BridgeLink.form.Faithful := .of_all reader_toJson integral_toJson

/-! ## Answers and requests -/

/-- The numbers of a report are numbers of 64 bits. -/
structure SyncReport.InRange (r : SyncReport) : Prop where
  created : r.created < Width.count 64
  updated : r.updated < Width.count 64

/-- The form of reports. -/
def SyncReport.form : Form SyncReport where
  write := toJson
  read := reader
  shape := .record [("created", .single), ("updated", .single), ("skipped_bridges", .single)]
  InRange := InRange

instance : SyncReport.reader.Indifferent SyncReport.form.shape :=
  Fields.Shaped.indifferent (by decide)

theorem SyncReport.reader_toJson {r : SyncReport} (h : r.InRange) :
    reader (tree r.toJson) = .ok r := by
  refine Fields.Shaped.read_fields (by decide) rfl ?_
  simp [map_build_eq_ok_iff, seq_build_eq_ok_iff, required_build_eq_ok_iff, List.lookup_cons,
    Reader.word64_nat h.created, Reader.word64_nat h.updated, Reader.list_map Bridge.reader_toJson]

theorem SyncReport.integral_toJson {r : SyncReport} (h : r.InRange) : integral r.toJson = true := by
  have hcreated := Json.integral_nat h.created
  have hupdated := Json.integral_nat h.updated
  have hskipped := Bridge.integral_list r.skippedBridges
  rw [toJson, integral]
  simp only [integralMembers, hcreated, hupdated, hskipped]
  rfl

/-- Every report that is read is in range. -/
theorem SyncReport.inRange_of_reader {t : Tree} {r : SyncReport} (h : reader t = .ok r) :
    r.InRange := by
  obtain ⟨get, hbuild, -⟩ := Json.build_of_record (by constructor <;> decide) h
  simp only [map_build_eq_ok_iff, seq_build_eq_ok_iff, required_build_eq_ok_iff] at hbuild
  obtain ⟨_, _, ⟨_, _, ⟨_, hcreated, rfl⟩, hupdated, rfl⟩, -, rfl⟩ := hbuild
  exact ⟨(Json.int_of_required hcreated).2, (Json.int_of_required hupdated).2⟩

theorem SyncReport.form_faithful : SyncReport.form.Faithful :=
  .of_inRange (fun _ _ => inRange_of_reader) (fun _ => reader_toJson) fun _ => integral_toJson

/-- The form of requests for a knock. -/
def KnockRequest.form : Form KnockRequest where
  write := toJson
  read := reader
  shape := .record [("notification", .record [("door_id", .single), ("person_id", .single)])]

instance : (record .lenient (KnockRequest.mk <$> required "door_id" Uuid.reader <*>
    required "person_id" Uuid.reader)).Indifferent
      (.record [("door_id", .single), ("person_id", .single)]) :=
  Fields.Shaped.indifferent (by decide)

instance : KnockRequest.reader.Indifferent KnockRequest.form.shape :=
  Fields.Shaped.indifferent (by decide)

theorem KnockRequest.reader_toJson (r : KnockRequest) : reader (tree r.toJson) = .ok r := by
  refine Fields.Shaped.read_fields (by decide) rfl ?_
  rw [required_build_eq_ok_iff]
  refine ⟨_, rfl, Fields.Shaped.read_fields (by decide) rfl ?_⟩
  simp [map_build_eq_ok_iff, seq_build_eq_ok_iff, required_build_eq_ok_iff, List.lookup_cons]

theorem KnockRequest.integral_toJson (r : KnockRequest) : integral r.toJson = true := by
  simp [toJson, integral, integralMembers]

theorem KnockRequest.form_faithful : KnockRequest.form.Faithful :=
  .of_all reader_toJson integral_toJson

end Concierge
