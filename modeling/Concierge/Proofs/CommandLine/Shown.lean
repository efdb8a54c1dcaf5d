import Concierge.Proofs.CommandLine.Checked
import Concierge.Proofs.Settings.Printing

/-!
# What the program shows of its settings

The program shows its settings when it is told to print them and when it has checked them.  Settings
that differ in their secrets alone are shown alike.  The address of the storage is no secret: it is
shown as it stands, with the password in it, so two addresses with different passwords are shown
differently.
-/

namespace Concierge

/-! ## Texts with one value in them -/

namespace Json

/-- Texts are quoted alike only if they are the same. -/
theorem quoted_injective : Function.Injective quoted := fun s t h => by
  have hs := readText_compact (j := .string s) .text rfl
  have ht := readText_compact (j := .string t) .text rfl
  have htext : compact (.string s) = compact (.string t) := congrArg String.ofList h
  rw [htext, ht] at hs
  exact (Except.ok.inj hs).symm

variable (depth : Nat) (key : String) {v v' : Json}

theorem indentedMembers_inj (before after : List (String × Json)) :
    indentedMembers depth (before ++ (key, v) :: after) =
        indentedMembers depth (before ++ (key, v') :: after) ↔
      indentedChars depth v = indentedChars depth v' := by
  induction before with
  | nil => cases after <;> simp [indentedMembers]
  | cons first rest ih =>
    cases rest <;> simpa [indentedMembers] using ih

/-- Objects that differ in one value are printed alike if and only if the values are. -/
theorem indentedChars_object_inj (before after : List (String × Json)) :
    indentedChars depth (.object (before ++ (key, v) :: after)) =
        indentedChars depth (.object (before ++ (key, v') :: after)) ↔
      indentedChars (depth + 1) v = indentedChars (depth + 1) v' := by
  refine Iff.trans ?_ (indentedMembers_inj (depth + 1) key before after)
  cases before <;> simp [indentedChars]

end Json

namespace ProgramSettings

/-- The settings with another address of the storage. -/
def withDsn (s : ProgramSettings) (dsn : String) : ProgramSettings :=
  { s with database := { s.database with dsn } }

/-- The address of a storage whose user has a password. -/
def passwordDsn (scheme user rest password : String) : String :=
  scheme ++ "://" ++ user ++ ":" ++ password ++ "@" ++ rest

theorem passwordDsn_injective (scheme user rest : String) :
    Function.Injective (passwordDsn scheme user rest) := fun p p' h => by
  have hlists := congrArg String.toList h
  simpa [passwordDsn, String.toList_append, String.toList_inj] using hlists

/-- The address of the storage is printed as it stands. -/
theorem indented_withDsn_inj {s : ProgramSettings} {dsn dsn' : String} :
    (s.withDsn dsn).toJson.indented = (s.withDsn dsn').toJson.indented ↔ dsn = dsn' := by
  rw [Json.indented, Json.indented, String.ofList_inj]
  calc
    _ ↔ Json.indentedChars 1 (s.withDsn dsn).database.toJson =
        Json.indentedChars 1 (s.withDsn dsn').database.toJson :=
      Json.indentedChars_object_inj 0 "database" [("server", s.server.toJson)]
        [("logging", s.logging.toJson), ("doorbot", s.service.toJson)]
    _ ↔ Json.quoted dsn = Json.quoted dsn' :=
      Json.indentedChars_object_inj 1 "dsn" [] [("max_connections", .nat s.database.maxConnections)]
    _ ↔ dsn = dsn' := Json.quoted_injective.eq_iff

end ProgramSettings

/-! ## What a run shows -/

namespace CommandLine.Program

open ProgramSettings (passwordDsn passwordDsn_injective)

/-- What becomes of a text that is to be shown: it is shown at once, or else after the filter of the log
and the address to listen on were found in order. -/
def shown (printConfig : Bool) (filter : Except Failure Unit)
    (address : Except Failure Net.SocketAddress) (text : String) : Outcome :=
  if printConfig then .done ("Effective configuration:\n" ++ text ++ "\n")
  else match filter, address with
    | .error failure, _ => .failed failure
    | .ok (), .error failure => .failed failure
    | .ok (), .ok _ => .done ("Configuration is valid\n" ++ text ++ "\n")

section

variable {printConfig : Bool} {filter : Except Failure Unit}
  {address : Except Failure Net.SocketAddress} {text text' : String}

theorem shown_code : (shown printConfig filter address text).code =
    (shown printConfig filter address text').code := by
  unfold shown
  split
  · rfl
  · cases filter <;> cases address <;> rfl

/-- Texts are shown alike if and only if they are the same or are not shown at all. -/
theorem shown_inj : shown printConfig filter address text = shown printConfig filter address text' ↔
    (shown printConfig filter address text).code ≠ 0 ∨ text = text' := by
  unfold shown
  split
  · simp [Outcome.code]
  · cases filter <;> cases address <;> simp [Outcome.code]

end

variable {around around' : Surroundings} {args : List String} {a : Arguments} {s s' : ProgramSettings}

/-- Arguments that set nothing leave the settings. -/
theorem effective_of_none (hport : a.port = none) (hverbosity : a.verbosity = 0) :
    effective s a = s := by
  simp only [effective, hport, hverbosity]
  rfl

theorem printed_inj {s t : ProgramSettings} :
    printed s = printed t ↔ s.toJson.indented = t.toJson.indented := by
  simp [printed]

/-- A run that is to print its settings, or to check them, shows them. -/
theorem run_eq_shown (hread : Arguments.read args = .ok a)
    (hasked : a.printConfig = true ∨ a.command = some .check)
    (hsettings : settings around a.config = .ok s) :
    run around args = shown a.printConfig (checkFilter around (effective s a))
      (listenAddress (effective s a)) (effective s a).toJson.indented := by
  cases hprint : a.printConfig with
  | true =>
    rw [run_of_perform_ok hread (perform_of_printConfig hsettings hprint)]
    rfl
  | false =>
    have hcheck : a.command = some .check := hasked.resolve_left (by simp [hprint])
    have hperform := perform_of_settings hsettings hprint
    rw [hcheck] at hperform
    simp only [run, hread, hperform, Option.getD_some, shown]
    cases checkFilter around (effective s a) with
    | error failure => rfl
    | ok _ => cases listenAddress (effective s a) <;> rfl

/-- Two runs with the same arguments and the same filter of the log show their settings alike if these are
the same without their secrets.  If they differ in a password of the storage's user alone, they are shown
differently, unless the run fails before it shows any. -/
theorem shown_unless_secret (hread : Arguments.read args = .ok a)
    (hasked : a.printConfig = true ∨ a.command = some .check)
    (hs : settings around a.config = .ok s) (hs' : settings around' a.config = .ok s')
    (hfilter : around.environment.lookup filterVariable =
      around'.environment.lookup filterVariable) :
    (s.withoutSecrets = s'.withoutSecrets → run around args = run around' args) ∧
    ∀ (t : ProgramSettings) (scheme user rest p p' : String),
      s = t.withDsn (passwordDsn scheme user rest p) →
      s' = t.withDsn (passwordDsn scheme user rest p') →
        (run around args).code = (run around' args).code ∧
        (run around args = run around' args ↔ (run around args).code ≠ 0 ∨ p = p') := by
  rw [run_eq_shown hread hasked hs, run_eq_shown hread hasked hs']
  refine ⟨fun hsecrets => ?_, ?_⟩
  · have hshown : ∀ (around : Surroundings) (s : ProgramSettings),
        shown a.printConfig (checkFilter around (effective s a)) (listenAddress (effective s a))
            (effective s a).toJson.indented =
          shown a.printConfig (checkFilter around (effective s.withoutSecrets a))
            (listenAddress (effective s.withoutSecrets a))
            (effective s.withoutSecrets a).toJson.indented := fun _ _ => rfl
    rw [hshown around s, hshown around' s', hsecrets, checkFilter_congr hfilter rfl]
  · rintro t scheme user rest p p' rfl rfl
    have htext : (effective (t.withDsn (passwordDsn scheme user rest p)) a).toJson.indented =
        (effective (t.withDsn (passwordDsn scheme user rest p')) a).toJson.indented ↔ p = p' :=
      (ProgramSettings.indented_withDsn_inj (s := effective t a)).trans
        (passwordDsn_injective scheme user rest).eq_iff
    have hcheck : checkFilter around' (effective (t.withDsn (passwordDsn scheme user rest p')) a) =
        checkFilter around (effective (t.withDsn (passwordDsn scheme user rest p)) a) :=
      checkFilter_congr hfilter.symm rfl
    rw [hcheck, ← htext]
    exact ⟨shown_code, shown_inj⟩

/-! ### A password in a file -/

/-- A file with an address of the storage in which the user has a password. -/
def sampleStorage (password : String) : Surroundings where
  file? path := if path = "doorbot.yaml" then
      some (Utf8.encode ("database:\n  dsn: postgres://doorbot:" ++ password ++
        "@db.example.test/doorbot\n"))
    else none
  environment := []
  connects _ := true
  binds _ := true

theorem settings_sampleStorage : ∀ password ∈ ["hunter2", ""],
    settings (sampleStorage password) (some "doorbot.yaml") = .ok (ProgramSettings.standard.withDsn
      (passwordDsn "postgres" "doorbot" "db.example.test/doorbot" password)) := by
  decide +kernel

/-- A successful check tells the passwords of two files apart. -/
theorem shown_unless_secret_password :
    (run (sampleStorage "hunter2") ["-c", "doorbot.yaml", "check"]).code = 0 ∧
      run (sampleStorage "hunter2") ["-c", "doorbot.yaml", "check"] ≠
        run (sampleStorage "") ["-c", "doorbot.yaml", "check"] := by
  have hread : Arguments.read ["-c", "doorbot.yaml", "check"] =
      .ok ⟨some "doorbot.yaml", none, false, 0, some .check⟩ := by decide +kernel
  have hcode : (run (sampleStorage "hunter2") ["-c", "doorbot.yaml", "check"]).code = 0 := by
    decide +kernel
  obtain ⟨-, hshown⟩ := shown_unless_secret hread (.inr rfl)
    (settings_sampleStorage "hunter2" (by simp)) (settings_sampleStorage "" (by simp)) rfl
  obtain ⟨-, hiff⟩ := hshown .standard "postgres" "doorbot" "db.example.test/doorbot" "hunter2" ""
    rfl rfl
  refine ⟨hcode, fun hsame => ?_⟩
  obtain hfailed | hpassword := hiff.1 hsame
  · exact hfailed hcode
  · exact absurd hpassword (by decide)

/-- The password is in what is printed, so two passwords are printed differently. -/
theorem password_is_printed :
    (∀ password ∈ ["hunter2", ""],
      run (sampleStorage password) ["-c", "doorbot.yaml", "--print-config"] =
        printed (ProgramSettings.standard.withDsn
          (passwordDsn "postgres" "doorbot" "db.example.test/doorbot" password))) ∧
    run (sampleStorage "hunter2") ["-c", "doorbot.yaml", "--print-config"] ≠
      run (sampleStorage "") ["-c", "doorbot.yaml", "--print-config"] := by
  have hread : Arguments.read ["-c", "doorbot.yaml", "--print-config"] =
      .ok ⟨some "doorbot.yaml", none, true, 0, none⟩ := by decide +kernel
  have hprinted : ∀ password ∈ ["hunter2", ""],
      run (sampleStorage password) ["-c", "doorbot.yaml", "--print-config"] =
        printed (ProgramSettings.standard.withDsn
          (passwordDsn "postgres" "doorbot" "db.example.test/doorbot" password)) :=
    fun password hpassword => (run_of_perform_ok hread (perform_of_printConfig
      (settings_sampleStorage password hpassword) rfl)).trans
        (congrArg printed (effective_of_none rfl rfl))
  refine ⟨hprinted, fun hsame => ?_⟩
  rw [hprinted "hunter2" (by simp), hprinted "" (by simp)] at hsame
  exact absurd (ProgramSettings.indented_withDsn_inj.1 (printed_inj.1 hsame)) (by decide)

end CommandLine.Program

end Concierge
