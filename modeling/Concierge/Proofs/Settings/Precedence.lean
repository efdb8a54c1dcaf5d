import Concierge.Proofs.Settings.Layouts
import Concierge.Proofs.Settings.Variables
import Concierge.Settings.Layers
import Mathlib.Data.List.Infix

/-!
# Which layer decides a setting

Every setting is what the command line says about it, or else what the variable that leads to it says,
or else what the file says, or else what is built in; a layer that sets one setting leaves the others
to the layers below.  Two things about the file go with this: a section that is written as a list says
its settings by their places, as long as no variable leads into it, and then not at all; and where the
file and a variable both give a table for one setting, the tables are merged.
-/

namespace Concierge

open Json (Apart Kind Layout Leaf Separate Step overlay)

namespace ProgramSettings

/-- The settings that are single values, by the keys that lead to them. -/
def leafNames : List (List String) := (layout tolerance).leaves.map Leaf.names

example : leafNames = [["server", "bind_addr"], ["server", "port"], ["server", "request_timeout_ms"],
    ["database", "dsn"], ["database", "max_connections"], ["logging", "level"], ["logging", "format"],
    ["doorbot", "delivery_attempt_timeout_ms"], ["doorbot", "fetch_timeout_ms"],
    ["doorbot", "sync_bridges"], ["doorbot", "match_key"], ["doorbot", "providers", "email_from"],
    ["doorbot", "providers", "hipchat", "base_url"], ["doorbot", "providers", "hipchat", "token"],
    ["doorbot", "providers", "slack", "base_url"], ["doorbot", "providers", "slack", "token"],
    ["doorbot", "providers", "nexmo", "base_url"], ["doorbot", "providers", "nexmo", "api_key"],
    ["doorbot", "providers", "nexmo", "api_secret"], ["doorbot", "providers", "nexmo", "from"],
    ["doorbot", "providers", "twilio", "base_url"], ["doorbot", "providers", "twilio", "account_sid"],
    ["doorbot", "providers", "twilio", "auth_token"],
    ["doorbot", "providers", "twilio", "phone_number"],
    ["doorbot", "providers", "mailgun", "base_url"], ["doorbot", "providers", "mailgun", "domain"],
    ["doorbot", "providers", "mailgun", "api_key"],
    ["doorbot", "providers", "postmark", "base_url"],
    ["doorbot", "providers", "postmark", "server_token"],
    ["doorbot", "providers", "google_directory", "base_url"],
    ["doorbot", "providers", "google_directory", "customer"]] := rfl

/-- No setting is on the way to another. -/
theorem leafNames_apart : ∀ p ∈ leafNames, ∀ q ∈ leafNames, p <+: q → p = q := by
  decide +kernel

/-- A file gives a table. -/
theorem fileLayer?_object {file : Option String} {table : Json} (h : fileLayer? file = some table) :
    ∃ members, table = .object members := by
  cases file with
  | none => exact ⟨[], (Option.some.inj h).symm⟩
  | some text =>
    simp only [fileLayer?, Yaml.settings?, Option.bind_eq_bind, Option.bind_eq_some_iff] at h
    obtain ⟨tokens, -, node, -, h⟩ := h
    split at h
    · exact ⟨[], (Option.some.inj h).symm⟩
    · split at h
      · exact ⟨[], (Option.some.inj h).symm⟩
      · cases h
    · cases h
    · split at h
      · cases h
      · obtain ⟨members, -, rfl⟩ := Option.map_eq_some_iff.1 h
        exact ⟨members, rfl⟩

end ProgramSettings

/-- What the command line says about a setting. -/
def Overrides.says? (o : Overrides) (names : List String) : Option Json :=
  if names = ["server", "port"] then o.port.map .nat
  else if names = ["logging", "level"] then (ProgramSettings.verboseLevel? o.verbosity).map .string
  else none

namespace ProgramSettings

/-- What is said about a setting: by the command line, or else by a variable, laid over what the file
says, or else by the file. -/
def said? (o : Overrides) (vars : List (List String × Json)) (table : Json) (path : List Step) :
    Option Json :=
  (o.says? (path.map Prod.fst)).or
    (overlay (table.says? vars path) (vars.lookup (path.map Prod.fst)))

/-- What a variable says about a setting counts unless the command line says something. -/
theorem said?_of_variable {o : Overrides} {vars : List (List String × Json)} {table v : Json}
    {path : List Step} (hcommand : o.says? (path.map Prod.fst) = none)
    (hvariable : vars.lookup (path.map Prod.fst) = some v) :
    said? o vars table path = some (Json.laidOver (table.says? vars path) v) := by
  rw [said?, hcommand, hvariable]
  rfl

/-- The command line sets what it says something about, and nothing else. -/
theorem override_holds (s : ProgramSettings) {o : Overrides}
    (hport : ∀ port ∈ o.port, port < ServerSettings.portBound) :
    ∀ ℓ ∈ (layout tolerance).leaves, ℓ.Holds s (o.says? ℓ.names) (s.override o) := by
  have hother {key : String} (hserver : key ≠ "server") (hlogging : key ≠ "logging")
      (names : List String) : o.says? (key :: names) = none := by
    simp [Overrides.says?, hserver, hlogging]
  refine Layout.forall_leaves.2 fun place p hp => ?_
  match place with
  | 0 =>
    obtain rfl := Option.some.inj hp
    change ∀ ℓ ∈ (ServerSettings.layout tolerance).leaves, _
    cases hsaid : o.port with
    | none =>
      simp [ServerSettings.layout, Layout.leaves, Leaf.under, Leaf.names, Leaf.Holds,
        Overrides.says?, override, hsaid]
    | some port =>
      have hmeans : (Kind.natBelow ServerSettings.portBound (by decide)).Means (.nat port) port :=
        ⟨rfl, hport port hsaid⟩
      simpa [ServerSettings.layout, Layout.leaves, Leaf.under, Leaf.names, Leaf.Holds,
        Overrides.says?, override, hsaid] using hmeans
  | 1 =>
    obtain rfl := Option.some.inj hp
    intro ℓ hℓ
    rw [show (ℓ.under _ _).names = "database" :: ℓ.names from rfl, hother (by decide) (by decide)]
    rfl
  | 2 =>
    obtain rfl := Option.some.inj hp
    change ∀ ℓ ∈ (LoggingSettings.layout tolerance).leaves, _
    cases hsaid : verboseLevel? o.verbosity with
    | none =>
      simp [LoggingSettings.layout, Layout.leaves, Leaf.under, Leaf.names, Leaf.Holds,
        Overrides.says?, override, hsaid]
    | some level =>
      simp [LoggingSettings.layout, Layout.leaves, Leaf.under, Leaf.names, Leaf.Holds,
        Overrides.says?, override, hsaid, Kind.text]
  | 3 =>
    obtain rfl := Option.some.inj hp
    intro ℓ hℓ
    rw [show (ℓ.under _ _).names = "doorbot" :: ℓ.names from rfl, hother (by decide) (by decide)]
    rfl

/-- What there is at a setting once the variables are laid over a file. -/
theorem at?_patch_layer {members : List (String × Json)} {environment : List (String × String)}
    (hnames : ∀ p ∈ Environment.values environment, p.1 ∈ leafNames)
    (hdistinct : ((Environment.values environment).map (·.1)).Nodup) {path : List Step}
    (hpath : path.map Prod.fst ∈ leafNames) :
    ((Json.object members).patch (Environment.layer environment)).at? path =
      overlay ((Json.object members).says? (Environment.values environment) path)
        ((Environment.values environment).lookup (path.map Prod.fst)) := by
  cases hvalues : Environment.values environment with
  | nil => simp [Environment.layer_eq, hvalues, Json.patch, Json.patchMembers, overlay]
  | cons first rest =>
    rw [← hvalues]
    have hapart : Apart (Environment.values environment) (path.map Prod.fst) :=
      fun p hp hprefix => hprefix.elim (leafNames_apart _ (hnames p hp) _ hpath)
        fun h => (leafNames_apart _ hpath _ (hnames p hp) h).symm
    have hseparate : (Environment.values environment).Pairwise Separate := by
      refine (List.pairwise_map.1 hdistinct).imp_of_mem fun hp hq hne => ?_
      exact ⟨fun h => hne (leafNames_apart _ (hnames _ hp) _ (hnames _ hq) h),
        fun h => hne (leafNames_apart _ (hnames _ hq) _ (hnames _ hp) h).symm⟩
    have hdeep : ∀ p ∈ Environment.values environment, p.1 ≠ [] := by
      intro p hp hnil
      have hempty : [] ∉ leafNames := by decide +kernel
      exact hempty (hnil ▸ hnames p hp)
    exact (Environment.spread_layer hdeep hseparate).at?_laidOver (by simp [hvalues]) hapart
      (some (.object members))

/-- Only sections are on the way to a setting. -/
theorem sections_on_the_way : ∀ path ∈ (layout tolerance).leaves.map Leaf.path, ∀ way ∈ path.inits,
    way = path ∨ way ∈ (layout tolerance).sections.map Json.Section.path := by
  decide +kernel

/-- A table whose sections are all tables says of a setting what it has there. -/
theorem says?_leaf {table : Json} (h : ∀ c ∈ (layout tolerance).sections, c.IsObject table)
    (vars : List (List String × Json)) :
    ∀ ℓ ∈ (layout tolerance).leaves, table.says? vars ℓ.path = table.at? ℓ.path := by
  intro ℓ hℓ
  refine Json.says?_eq_at? fun way hway hne v hv => ?_
  have hmem := (sections_on_the_way ℓ.path (List.mem_map_of_mem hℓ) way
    ((List.mem_inits _ _).2 hway)).resolve_left hne
  obtain ⟨c, hc, rfl⟩ := List.mem_map.1 hmem
  exact h c hc v hv

/-- If settings are loaded, every setting is what the command line says about it, or else what the
variable that leads to it says, or else what the file says, or else what is built in.  A file whose
sections are all tables says of a setting what it has at the path of its keys. -/
theorem layers_decide {file : Option String} {environment : List (String × String)} {o : Overrides}
    {s : ProgramSettings}
    (hnames : ∀ p ∈ Environment.values environment, p.1 ∈ leafNames)
    (hdistinct : ((Environment.values environment).map (·.1)).Nodup)
    (hport : ∀ port ∈ o.port, port < ServerSettings.portBound)
    (hload : load? file environment = some s) :
    ∃ table, fileLayer? file = some table ∧
      (∀ ℓ ∈ (layout tolerance).leaves,
        ℓ.Holds standard (said? o (Environment.values environment) table ℓ.path) (s.override o)) ∧
      ((∀ c ∈ (layout tolerance).sections, c.IsObject table) →
        ∀ ℓ ∈ (layout tolerance).leaves,
          table.says? (Environment.values environment) ℓ.path = table.at? ℓ.path) := by
  simp only [load?, Option.bind_eq_bind, Option.bind_eq_some_iff] at hload
  obtain ⟨table, hfile, hload⟩ := hload
  obtain ⟨members, rfl⟩ := fileLayer?_object hfile
  have hread : reader tolerance ((Json.object members).patch (Environment.layer environment)).tree =
      .ok s := by
    revert hload
    rw [ofTable?]
    cases reader tolerance ((Json.object members).patch (Environment.layer environment)).tree with
    | error e => exact fun h => nomatch h
    | ok t => exact fun h => congrArg _ (Option.some.inj h)
  refine ⟨_, hfile, fun ℓ hℓ => ?_, fun h => says?_leaf h _⟩
  have htold := (layout tolerance).tells hread ℓ hℓ
  rw [at?_patch_layer hnames hdistinct (List.mem_map_of_mem hℓ)] at htold
  have hset := override_holds s hport ℓ hℓ
  rw [Leaf.names] at hset
  rw [said?]
  cases hsaid : o.says? (ℓ.path.map Prod.fst) with
  | some v =>
    rw [hsaid] at hset
    exact hset
  | none =>
    rw [hsaid] at hset
    have hget : ℓ.get (s.override o) = ℓ.get s := hset
    rw [Option.none_or, Leaf.holds_congr hget]
    exact htold

/-! ### Four layers, and a section that is a list -/

/-- A file that sets where the program listens. -/
def sampleFile : String := "server:\n  bind_addr: 10.0.0.1\n  port: 9000\n"

/-- Variables that set the port and a secret. -/
def sampleVariables : List (String × String) :=
  [("APP__SERVER__PORT", "9100"), ("app__doorbot__providers__slack__token", "xoxb-1")]

/-- The command line decides the port, and a variable the secret. -/
theorem layers_decide_sample : ∃ s, load? (some sampleFile) sampleVariables = some s ∧
    (s.override ⟨some 9200, 0⟩).server.port = 9200 ∧
    (s.override ⟨some 9200, 0⟩).service.providers.slack.token = some ⟨"xoxb-1"⟩ := by
  have hload : (load? (some sampleFile) sampleVariables).isSome = true := by decide +kernel
  obtain ⟨s, hs⟩ := Option.isSome_iff_exists.1 hload
  have hport : ∀ port ∈ (⟨some 9200, 0⟩ : Overrides).port, port < ServerSettings.portBound := by
    decide
  obtain ⟨table, -, hholds, -⟩ := layers_decide (by decide +kernel) (by decide +kernel) hport hs
  have hvalues : Environment.values sampleVariables = [(["server", "port"], .int 9100),
      (["doorbot", "providers", "slack", "token"], .string "xoxb-1")] := rfl
  rw [hvalues] at hholds
  have hnumber : Json.int 9200 = .int (s.override ⟨some 9200, 0⟩).server.port ∧ _ :=
    hholds _ (List.mem_of_getElem? (i := 1) rfl)
  have htext : (Kind.option .secret).Means (.string "xoxb-1")
      (s.override ⟨some 9200, 0⟩).service.providers.slack.token := by
    have htoken := hholds _ (List.mem_of_getElem? (i := 15) rfl)
    rw [said?_of_variable rfl rfl, Json.laidOver_eq_self _ (by simp)] at htoken
    exact htoken
  refine ⟨s, hs, (Int.ofNat.inj (Json.int.inj hnumber.1)).symm, ?_⟩
  exact (Kind.option .secret).unique htext (.inr ⟨by simp, _, rfl, rfl⟩)

/-- A file without a key for the address sets it, by its place in a list. -/
theorem list_sets_address :
    (fileLayer? (some "server: [0.0.0.0]\n")).map (fun table =>
        ((table.get? "server").bind (Json.get? "bind_addr")).isSome) = some false ∧
      (load? (some "server: [0.0.0.0]\n") []).map (fun s => (s.override ⟨none, 0⟩).server.bindAddr) =
        some "0.0.0.0" ∧
      standard.server.bindAddr = "127.0.0.1" := by
  decide +kernel

end ProgramSettings

end Concierge
