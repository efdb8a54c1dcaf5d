import Concierge.CommandLine.Program
import Concierge.Proofs.Fallible

/-!
# Settings that were checked

The same options with the command to check and with the command to run are read alike, so both commands
see the same settings.  Whatever a check finds in order a run finds in order too, the address to listen
on included.  The addresses of the providers are looked at by a run alone: apart from the storage, which
has to be reached and made ready, the client for outgoing requests and the port, they are all that can
stop the program after a successful check.
-/

namespace Concierge.CommandLine

variable {a b : Arguments} {d : Draft}

/-! ## Reading a command after options -/

namespace Draft

theorem assign_command {setting : Setting} {value : String} (h : assign a setting value = .ok b) :
    b.command = a.command := by
  cases setting <;> simp only [assign] at h <;> split at h
  · cases h
  · cases h
    rfl
  · cases h
  · split at h
    · cases h
      rfl
    · cases h

theorem turn_command {switch : Switch} (h : turn a switch = .ok b) : b.command = a.command := by
  cases switch with
  | setting _ => cases h
  | help => cases h
  | version => cases h
  | verbose =>
    cases h
    rfl
  | printConfig =>
    simp only [turn] at h
    split at h <;> cases h
    rfl

theorem settle_command (h : settle d = .ok b) : b.command = d.arguments.command := by
  unfold settle at h
  split at h
  · exact assign_command h
  · cases h
    rfl

/-- What is made of a result without a value that is still to come. -/
theorem command_of_map {result : Except Halt Arguments} {setting : Option Setting}
    (hresult : ∀ c, result = .ok c → c.command = a.command)
    (h : result.map (fun c => (c, (none : Option Setting))) = .ok (b, setting)) :
    b.command = a.command := by
  cases result with
  | error halt => cases h
  | ok c =>
    cases h
    exact hresult _ rfl

theorem word_command {text : List Char} {setting : Option Setting}
    (h : word a text = .ok (b, setting)) : b.command = a.command := by
  simp only [word] at h
  split at h
  · exact command_of_map (fun _ => assign_command) h
  · cases h
    rfl
  · exact command_of_map (fun _ => turn_command) h
  · cases h

theorem cluster_command {letters : List Char} {setting : Option Setting}
    (h : cluster a letters = .ok (b, setting)) : b.command = a.command := by
  induction letters generalizing a with
  | nil =>
    cases h
    rfl
  | cons c rest ih =>
    simp only [cluster] at h
    split at h
    · split at h
      · exact command_of_map (fun _ => assign_command) h
      · cases h
        rfl
    · split at h
      · next hturn => exact (ih h).trans (turn_command hturn)
      · cases h
    · cases h

/-- Read an argument that is an option. -/
def option (d : Draft) (argument : String) : Except Halt (Arguments × Option Setting) :=
  d.settle.bind fun a => match argument.toList with
    | '-' :: '-' :: text => word a text
    | '-' :: c :: letters => cluster a (c :: letters)
    | _ => .error .misuse

/-- An option never sets the command. -/
theorem option_command {argument : String} {setting : Option Setting}
    (h : d.option argument = .ok (b, setting)) : b.command = d.arguments.command := by
  unfold option at h
  cases hsettle : d.settle with
  | error halt =>
    rw [hsettle] at h
    cases h
  | ok a =>
    rw [hsettle] at h
    simp only [Except.bind] at h
    have hoption : b.command = a.command := by
      split at h
      · exact word_command h
      · exact cluster_command h
      · cases h
    exact hoption.trans (settle_command hsettle)

theorem lookup_name (c : Command) : Command.names.lookup c.name = some c := by
  cases c <;> decide

/-- A command that nothing follows. -/
theorem scan_command (d : Draft) (c : Command) :
    scan d [c.name] = d.settle.map fun a => { a with command := some c } := by
  simp only [scan, lookup_name, afterCommand]

/-- No command follows a command. -/
theorem afterCommand_ne_ok {command : Command} (rest : List String) (c : Command) :
    afterCommand d command (rest ++ [c.name]) ≠ .ok a := by
  cases rest with
  | nil => cases c <;> simp [afterCommand, Command.name]
  | cons next rest =>
    simp only [List.cons_append, afterCommand]
    split <;> simp

/-- An argument that is neither a command nor the word for help nor the end of the options is read as
an option, with the next argument as its value if it needs one. -/
theorem scan_option {argument : String} (rest : List String)
    (hlookup : Command.names.lookup argument = none) (hhelp : ¬ (argument == "help") = true)
    (hend : ¬ (argument == "--") = true) :
    scan d (argument :: rest) = match d.option argument with
      | .error halt => .error halt
      | .ok (a, none) => scan ⟨a, none⟩ rest
      | .ok (a, some setting) =>
        match rest with
        | value :: rest =>
          if isValue value then scan ⟨a, some (setting, value)⟩ rest else .error .misuse
        | [] => .error .misuse := by
  simp only [scan, hlookup, hhelp, hend]
  rfl

/-- If a command is read after options, the options are read without it, and every other command is
read after them alike. -/
theorem scan_with_command {options : List String} {c : Command} (hnone : d.arguments.command = none)
    (h : scan d (options ++ [c.name]) = .ok a) (hcommand : a.command ≠ none) :
    ∃ b, b.command = none ∧ scan d options = .ok b ∧
      ∀ c' : Command, scan d (options ++ [c'.name]) = .ok { b with command := some c' } := by
  fun_induction scan d options generalizing a with
  | case1 d =>
    simp only [List.nil_append, scan_command] at h ⊢
    cases hsettle : d.settle with
    | error halt =>
      rw [hsettle] at h
      cases h
    | ok b => exact ⟨b, (settle_command hsettle).trans hnone, rfl, fun _ => rfl⟩
  | case2 d argument rest command hlookup =>
    simp only [List.cons_append, scan, hlookup] at h
    exact absurd h (afterCommand_ne_ok rest c)
  | case3 d argument rest hlookup hhelp =>
    simp only [List.cons_append, scan, hlookup, hhelp, if_true] at h
    cases h
  | case4 d argument rest hlookup hhelp hend hrest =>
    have hmore : (rest ++ [c.name]).isEmpty = false := by simp
    simp only [List.cons_append, scan, hlookup, hhelp, hend, hmore, if_true] at h
    cases h
  | case5 d argument rest hlookup hhelp hend hrest =>
    have hmore : (rest ++ [c.name]).isEmpty = false := by simp
    simp only [List.cons_append, scan, hlookup, hhelp, hend, hmore, if_true] at h
    cases h
  | case6 d argument rest hlookup hhelp hend step halt =>
    rename_i hstep
    have hoption : d.option argument = .error halt := hstep
    simp only [List.cons_append, scan_option _ hlookup hhelp hend, hoption] at h
    cases h
  | case7 d argument rest hlookup hhelp hend step b hstep =>
    rename_i ih
    have hoption : d.option argument = .ok (b, none) := hstep
    simp only [List.cons_append, scan_option _ hlookup hhelp hend, hoption] at h ⊢
    exact ih ((option_command hoption).trans hnone) h hcommand
  | case8 d argument hlookup hhelp hend step b setting hstep value rest hvalue =>
    rename_i ih
    have hoption : d.option argument = .ok (b, some setting) := hstep
    simp only [List.cons_append, scan_option _ hlookup hhelp hend, hoption, hvalue, if_true] at h ⊢
    exact ih ((option_command hoption).trans hnone) h hcommand
  | case9 d argument hlookup hhelp hend step b setting hstep value rest =>
    rename_i hvalue
    have hoption : d.option argument = .ok (b, some setting) := hstep
    simp only [List.cons_append, scan_option _ hlookup hhelp hend, hoption, hvalue] at h
    cases h
  | case10 d argument hlookup hhelp hend step b setting =>
    rename_i hstep
    -- The command would be the value of the option.
    have hoption : d.option argument = .ok (b, some setting) := hstep
    have hvalue : isValue c.name = true := by cases c <;> simp [isValue, Command.name]
    simp only [List.singleton_append, scan_option _ hlookup hhelp hend, hoption, hvalue, if_true,
      scan] at h
    exact absurd ((settle_command h).trans ((option_command hoption).trans hnone)) hcommand

end Draft

/-- Options that are read with the command to check are read with the command to run, and without a
command, as the same settings. -/
theorem Arguments.read_of_check {options : List String}
    (h : Arguments.read (options ++ ["check"]) = .ok a) (hcheck : a.command = some .check) :
    a = { a with command := some .check } ∧
      Arguments.read options = .ok { a with command := Option.none } ∧
      Arguments.read (options ++ ["run"]) = .ok { a with command := some .run } := by
  have hname : ["check"] = [Command.check.name] := rfl
  obtain ⟨b, hnone, hoptions, hread⟩ := Draft.scan_with_command (d := .empty) (c := .check) rfl h
    (by simp [hcheck])
  obtain rfl := Except.ok.inj (h.symm.trans (hread .check))
  exact ⟨rfl, by rw [read, hoptions, ← hnone], hread .run⟩

/-! ## Starting with settings that were checked -/

namespace Program

/-- The storage can be reached and its tables be made ready. -/
structure StorageReady (around : Surroundings) (s : ProgramSettings) : Prop where
  connects : around.connects s.database = true
  migrates : around.migrationFault? s.database = none

/-- The addresses of the providers can be read, and there is a client to reach them. -/
structure ProvidersReady (around : Surroundings) (s : ProgramSettings) : Prop where
  addresses : s.service.providers.invalidAddress? = none
  client : around.clientFault? = none

/-- What can become of a start with settings whose address to listen on is in order.  Each outcome has
what came before it in order. -/
inductive Starts (around : Surroundings) (s : ProgramSettings) (address : Net.SocketAddress) :
    Outcome → Prop where
  | unreachable (storage : around.connects s.database = false) :
      Starts around s address (.failed .storage)
  | unmigrated {reason : String} (storage : around.connects s.database = true)
      (fault : around.migrationFault? s.database = some reason) :
      Starts around s address (.failed (.migration reason))
  | invalid {e : ProviderSettings.InvalidAddress} (storage : StorageReady around s)
      (first : s.service.providers.invalidAddress? = some e) :
      Starts around s address (.failed (.provider e))
  | clientless {reason : String} (storage : StorageReady around s)
      (addresses : s.service.providers.invalidAddress? = none)
      (fault : around.clientFault? = some reason) :
      Starts around s address (.failed (.client reason))
  | taken (storage : StorageReady around s) (providers : ProvidersReady around s)
      (port : around.binds address = false) : Starts around s address (.failed (.bind address))
  | serving (storage : StorageReady around s) (providers : ProvidersReady around s)
      (port : around.binds address = true) : Starts around s address (.serving s address)

/-- A start with settings whose address to listen on is in order. -/
theorem starts_of_listenAddress (around : Surroundings) {s : ProgramSettings}
    {address : Net.SocketAddress} (h : s.listenAddress? = some address) :
    (∃ failure, start around s = .error failure ∧ Starts around s address (.failed failure)) ∨
      start around s = .ok address ∧ Starts around s address (.serving s address) := by
  have hlisten : listenAddress s = .ok address := by simp only [listenAddress, h]
  cases hconnects : around.connects s.database with
  | false =>
    exact .inl ⟨.storage, by simp only [start, hconnects]; rfl, .unreachable hconnects⟩
  | true =>
    cases hmigrates : around.migrationFault? s.database with
    | some reason =>
      exact .inl ⟨.migration reason, by simp only [start, hconnects, hmigrates]; rfl,
        .unmigrated hconnects hmigrates⟩
    | none =>
      cases hinvalid : s.service.providers.invalidAddress? with
      | some e =>
        exact .inl ⟨.provider e, by simp only [start, hconnects, hmigrates, hinvalid]; rfl,
          .invalid ⟨hconnects, hmigrates⟩ hinvalid⟩
      | none =>
        cases hclient : around.clientFault? with
        | some reason =>
          exact .inl ⟨.client reason,
            by simp only [start, hconnects, hmigrates, hinvalid, hclient]; rfl,
            .clientless ⟨hconnects, hmigrates⟩ hinvalid hclient⟩
        | none =>
          have hstart : start around s =
              if around.binds address then .ok address else .error (.bind address) := by
            simp only [start, hconnects, hmigrates, hinvalid, hclient, hlisten]
            rfl
          cases hbinds : around.binds address with
          | false =>
            rw [hbinds] at hstart
            exact .inl ⟨_, hstart, .taken ⟨hconnects, hmigrates⟩ ⟨hinvalid, hclient⟩ hbinds⟩
          | true =>
            rw [hbinds] at hstart
            exact .inr ⟨hstart, .serving ⟨hconnects, hmigrates⟩ ⟨hinvalid, hclient⟩ hbinds⟩

/-- The settings as the arguments change them. -/
def effective (s : ProgramSettings) (a : Arguments) : ProgramSettings :=
  s.override ⟨a.port, a.verbosity⟩

/-- What is printed of settings without checking them. -/
def printed (s : ProgramSettings) : Outcome :=
  .done ("Effective configuration:\n" ++ s.toJson.indented ++ "\n")

/-- What is printed of settings that were checked. -/
def approved (s : ProgramSettings) : Outcome :=
  .done ("Configuration is valid\n" ++ s.toJson.indented ++ "\n")

variable {around later : Surroundings} {s : ProgramSettings}

theorem settings_congr (file : later.file? = around.file?)
    (environment : later.environment = around.environment) (path : Option String) :
    settings later path = settings around path := by
  simp only [settings, fileText, file, environment]

/-- The filter of the log depends on one variable and one setting. -/
theorem checkFilter_congr {s t : ProgramSettings}
    (filter : later.environment.lookup filterVariable = around.environment.lookup filterVariable)
    (level : t.logging.level = s.logging.level) : checkFilter later t = checkFilter around s := by
  simp only [checkFilter, filter, level]

/-- Settings that are only printed are printed whatever the command is. -/
theorem perform_of_printConfig (h : settings around a.config = .ok s)
    (hprint : a.printConfig = true) : perform around a = .ok (printed (effective s a)) := by
  simp only [perform, h, hprint]
  rfl

/-- Once the settings and the filter of the log are in order, the command decides. -/
theorem perform_of_settings (h : settings around a.config = .ok s) (hprint : a.printConfig = false) :
    perform around a = (checkFilter around (effective s a)).bind fun _ =>
      match a.command.getD .run with
      | .check => (listenAddress (effective s a)).map fun _ => approved (effective s a)
      | .run => (start around (effective s a)).map (.serving (effective s a)) := by
  simp only [perform, h, hprint, bind, Except.bind, effective]
  cases checkFilter around (s.override ⟨a.port, a.verbosity⟩) with
  | error failure => rfl
  | ok _ =>
    cases a.command.getD .run with
    | check => cases listenAddress (s.override ⟨a.port, a.verbosity⟩) <;> rfl
    | run => cases start around (s.override ⟨a.port, a.verbosity⟩) <;> rfl

/-- A check that ends well printed the settings, or approved them and their address to listen on. -/
theorem of_check_ok {outcome : Outcome} (hcheck : a.command = some .check)
    (h : perform around a = .ok outcome) :
    ∃ s, settings around a.config = .ok s ∧
      (a.printConfig = true ∧ outcome = printed (effective s a) ∨
        a.printConfig = false ∧ outcome = approved (effective s a) ∧
          checkFilter around (effective s a) = .ok () ∧
          ∃ address, (effective s a).listenAddress? = some address) := by
  cases hsettings : settings around a.config with
  | error failure =>
    simp only [perform, hsettings] at h
    cases h
  | ok s =>
    refine ⟨s, rfl, ?_⟩
    cases hprint : a.printConfig with
    | true =>
      rw [perform_of_printConfig hsettings hprint] at h
      exact .inl ⟨rfl, (Except.ok.inj h).symm⟩
    | false =>
      rw [perform_of_settings hsettings hprint, hcheck] at h
      cases hfilter : checkFilter around (effective s a) with
      | error failure =>
        rw [hfilter] at h
        cases h
      | ok _ =>
        simp only [hfilter, Except.bind, Option.getD_some, listenAddress] at h
        cases haddress : (effective s a).listenAddress? with
        | none =>
          rw [haddress] at h
          cases h
        | some address =>
          rw [haddress] at h
          exact .inr ⟨rfl, (Except.ok.inj h).symm, rfl, address, rfl⟩

/-- What was done is the outcome of the program. -/
theorem run_of_perform_ok {args : List String} {outcome : Outcome}
    (hread : Arguments.read args = .ok a) (h : perform around a = .ok outcome) :
    run around args = outcome := by
  simp only [run, hread, h]

/-- A start with settings in order is the outcome of the program. -/
theorem run_starts {args : List String} {address : Net.SocketAddress}
    (hread : Arguments.read args = .ok a) (hcommand : a.command.getD .run = .run)
    (hsettings : settings around a.config = .ok s) (hprint : a.printConfig = false)
    (hfilter : checkFilter around (effective s a) = .ok ())
    (haddress : (effective s a).listenAddress? = some address) :
    Starts around (effective s a) address (run around args) := by
  have hperform := perform_of_settings hsettings hprint
  simp only [hfilter, hcommand, Except.bind] at hperform
  obtain ⟨failure, hstart, hstarts⟩ | ⟨hstart, hstarts⟩ := starts_of_listenAddress around haddress
  · rw [hstart] at hperform
    simpa only [run, hread, hperform, Except.map] using hstarts
  · rw [hstart] at hperform
    rwa [run_of_perform_ok hread hperform]

/-- If a check ends well, the settings were only to be printed, or the program starts with the same file,
variables and options, whether it is told to run or has no command: the address to listen on is in order,
and all that can stop it are the storage, an address of a provider, the client for outgoing requests and
the port.  These may be found otherwise than when the check was made. -/
theorem checked_settings_start (file : later.file? = around.file?)
    (environment : later.environment = around.environment) {options : List String} {a : Arguments}
    (hread : Arguments.read (options ++ ["check"]) = .ok a) (hcheck : a.command = some .check)
    (hcode : (run around (options ++ ["check"])).code = 0) :
    (a.printConfig = true ∧ ∃ s, run around (options ++ ["check"]) = printed s ∧
      ∀ args ∈ [options ++ ["run"], options], run later args = printed s) ∨
    a.printConfig = false ∧ ∃ s address, run around (options ++ ["check"]) = approved s ∧
      s.listenAddress? = some address ∧
      ∀ args ∈ [options ++ ["run"], options], Starts later s address (run later args) := by
  obtain ⟨-, hbare, hrun⟩ := Arguments.read_of_check hread hcheck
  cases hperform : perform around a with
  | error failure =>
    simp only [run, hread, hperform] at hcode
    cases hcode
  | ok outcome =>
    obtain ⟨s, hsettings, ⟨hprint, rfl⟩ | ⟨hprint, rfl, hfilter, address, haddress⟩⟩ :=
      of_check_ok hcheck hperform
    all_goals rw [← settings_congr file environment] at hsettings
    · refine .inl ⟨hprint, effective s a, run_of_perform_ok hread hperform, fun args hargs => ?_⟩
      obtain rfl | rfl := by simpa using hargs
      · exact run_of_perform_ok hrun (perform_of_printConfig hsettings hprint)
      · exact run_of_perform_ok hbare (perform_of_printConfig hsettings hprint)
    · rw [← checkFilter_congr (by rw [environment]) rfl] at hfilter
      refine .inr ⟨hprint, effective s a, address, run_of_perform_ok hread hperform, haddress,
        fun args hargs => ?_⟩
      obtain rfl | rfl := by simpa using hargs
      · exact run_starts (a := { a with command := some .run }) hrun rfl hsettings hprint hfilter haddress
      · exact run_starts (a := { a with command := none }) hbare rfl hsettings hprint hfilter haddress

/-! ### A file that passes the check -/

/-- A file that gives Postmark an address without a scheme. -/
def sampleMisaddressed : Surroundings where
  file? path := if path = "doorbot.yaml" then
      some (Utf8.encode "doorbot:\n  providers:\n    postmark:\n      base_url: nope\n")
    else none
  environment := []
  connects _ := true
  binds _ := true

theorem checked_settings_start_sample :
    (run sampleMisaddressed ["-c", "doorbot.yaml", "check"]).code = 0 ∧
      ∃ s address, s.listenAddress? = some address ∧
        Starts sampleMisaddressed s address (run sampleMisaddressed ["-c", "doorbot.yaml"]) := by
  have hread : Arguments.read (["-c", "doorbot.yaml"] ++ ["check"]) =
      .ok ⟨some "doorbot.yaml", none, false, 0, some .check⟩ := by decide +kernel
  have hcode : (run sampleMisaddressed (["-c", "doorbot.yaml"] ++ ["check"])).code = 0 := by
    decide +kernel
  have hchecked := @checked_settings_start sampleMisaddressed sampleMisaddressed rfl rfl _ _ hread rfl
    hcode
  obtain ⟨hprint, -⟩ | ⟨-, s, address, -, haddress, hstarts⟩ := hchecked
  · cases hprint
  · exact ⟨hcode, s, address, haddress, hstarts ["-c", "doorbot.yaml"] (by simp)⟩

/-- The check approves the file, and the program refuses to start with it. -/
theorem check_approves_unusable_address :
    (run sampleMisaddressed ["-c", "doorbot.yaml", "check"]).code = 0 ∧
      run sampleMisaddressed ["-c", "doorbot.yaml", "run"] =
        .failed (.provider ⟨"postmark", "nope", .relative⟩) := by
  decide +kernel

end Program

end Concierge.CommandLine
