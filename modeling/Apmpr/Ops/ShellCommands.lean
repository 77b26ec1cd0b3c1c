import Apmpr.Lib.Shell
import Apmpr.Sources.HostKey

/-!
# Commands that a shell reads

Three places of the program write a command for a shell and put texts of the user into it: the
SSH command of a clone (`ssh_clone_command` and `run_git_clone_browser_with_program` of
`apmpr-sources`, which Git hands to a shell), the operations of the terminal interface
(`cli_shell_spec` of `apmpr-tui`) and the commands that the client suggests (`shell_path` of
`apmpr-cli`). They quote in two ways: a single quote is put between double quotes, or behind a
backslash.

The shell reads each of these commands as the words that are meant, whatever the texts are: a
path with blanks, quotes or operators stays one word.
-/

namespace Apmpr.Ops.ShellCommands

open Sources.HostKey Shell

/-- `shell_quote` of the terminal interface, and `shell_path` of the client: single quotes around
a text, and those inside of it behind a backslash. -/
def shellQuote (value : String) : String :=
  String.ofList (quote [singleQuote, backslash, singleQuote, singleQuote] value.toList)

/-- `cli_shell_spec`, with the executable it finds. -/
def cliShellSpec (executable : PathBuf) (command : String) (bundle : PathBuf) (confirmed : Bool) : String :=
  "exec " ++ shellQuote executable.text ++ " " ++ shellQuote command ++ " " ++ shellQuote bundle.text ++
    if confirmed then " --yes" else ""

/-- What `require_daemon_for_gui` and `gui_url` suggest to run. -/
def installCommand (workspaceRoot : PathBuf) : String := "apmpr daemon install " ++ shellQuote workspaceRoot.text

/-! ### Pieces -/

theorem fileResult_eq_ok_iff {α : Type} {result : Except String α} {a : α} : fileResult result = .ok a ↔ result = .ok a := by
  cases result <;> simp [fileResult]

theorem toList_posixQuote (value : String) : (posixQuote value).toList =
    quote [singleQuote, doubleQuote, singleQuote, doubleQuote, singleQuote] value.toList :=
  String.toList_ofList

theorem spells_posixQuote (value : String) : Spells (posixQuote value).toList value.toList := by
  rw [toList_posixQuote]
  exact spells_quote escapes_doubled value.toList

theorem spells_shellQuote (value : String) : Spells (shellQuote value).toList value.toList := by
  rw [shellQuote, String.toList_ofList]
  exact spells_quote escapes_backslash value.toList

/-! ### The SSH command -/

/-- The options for an identity file. -/
def identityWords : Option PathBuf → List String
  | none => []
  | some path => ["-o", "IdentitiesOnly=yes", "-i", path.text]

/-- The options for an approved host key, with the file of known hosts. -/
def hostKeyWords (knownHosts : PathBuf) : Option ApprovedHostKey → List String
  | none => []
  | some _ => ["-o", "StrictHostKeyChecking=yes", "-o", "UserKnownHostsFile=" ++ knownHosts.text]

/-- The command without a host key, in pieces. -/
theorem sshCloneCommand_pieces {machine : Machine} {identity : Option PathBuf} {command : String}
    (h : sshCloneCommand machine identity = .ok command) : ∃ pieces, Spell pieces (identityWords identity) ∧
      command.toList = "ssh".toList ++ arguments (["-o", "BatchMode=yes"] ++ pieces) := by
  cases identity with
  | none =>
    obtain rfl := Except.ok.inj h
    exact ⟨[], .nil, by decide⟩
  | some path =>
    obtain ⟨⟨⟩, -, h⟩ := bind_eq_ok_iff.mp h
    obtain rfl := Except.ok.inj h
    refine ⟨["-o", "IdentitiesOnly=yes", "-i"] ++ [posixQuote path.text], ?_, ?_⟩
    · exact List.rel_append (spell_self _ (by decide)) (.cons (spells_posixQuote path.text) .nil)
    · have hstart : "ssh -o BatchMode=yes".toList ++ " -o IdentitiesOnly=yes -i ".toList =
          "ssh".toList ++ arguments ["-o", "BatchMode=yes", "-o", "IdentitiesOnly=yes", "-i"] ++ [' '] := by decide
      rw [String.toList_append, String.toList_append, hstart]
      simp

/-- The options for the host key, in pieces. -/
theorem hostKey_pieces (knownHosts : PathBuf) (approval : ApprovedHostKey) :
    ∃ pieces, Spell pieces (hostKeyWords knownHosts (some approval)) ∧ arguments pieces =
      (" -o StrictHostKeyChecking=yes -o UserKnownHostsFile=" ++ posixQuote knownHosts.text).toList := by
  have hstart : " -o StrictHostKeyChecking=yes -o UserKnownHostsFile=".toList =
      arguments ["-o", "StrictHostKeyChecking=yes", "-o"] ++ ' ' :: "UserKnownHostsFile=".toList := by decide
  refine ⟨["-o", "StrictHostKeyChecking=yes", "-o"] ++ ["UserKnownHostsFile=" ++ posixQuote knownHosts.text], ?_, ?_⟩
  · refine List.rel_append (spell_self _ (by decide)) (.cons ?_ .nil)
    rw [String.toList_append, String.toList_append]
    exact (spells_ordinary (by decide) (by decide)).append (spells_posixQuote knownHosts.text)
  · rw [String.toList_append, hstart, arguments_append]
    simp

/-- **The SSH command of a clone** is read as `ssh` with the options that are meant: the identity
file and the file of known hosts are one word each. -/
theorem sshCommand_words {machine : Machine} {repository : String} {identity : Option PathBuf}
    {approval : Option ApprovedHostKey} {launch : Launch}
    (h : launchClone machine repository identity approval = .ok launch) :
    ∃ dir, machine.privateDir = .ok dir ∧ words launch.sshCommand =
      some (["ssh", "-o", "BatchMode=yes"] ++ identityWords identity ++ hostKeyWords (dir.join ⟨"known_hosts"⟩) approval) := by
  obtain ⟨dir, hdir, h⟩ := bind_eq_ok_iff.mp h
  obtain ⟨command, hcommand, h⟩ := bind_eq_ok_iff.mp h
  obtain ⟨pieces, hpieces, htext⟩ := sshCloneCommand_pieces hcommand
  have hbatch : Spell (["-o", "BatchMode=yes"] ++ pieces) (["-o", "BatchMode=yes"] ++ identityWords identity) :=
    List.rel_append (spell_self _ (by decide)) hpieces
  refine ⟨dir, fileResult_eq_ok_iff.mp hdir, ?_⟩
  cases approval with
  | none =>
    obtain rfl := Except.ok.inj h
    rw [hostKeyWords, List.append_nil]
    exact words_command _ htext (by decide) hbatch
  | some approval =>
    obtain ⟨scanned, -, h⟩ := bind_eq_ok_iff.mp h
    obtain ⟨⟨⟩, -, h⟩ := bind_eq_ok_iff.mp h
    obtain ⟨⟨⟩, -, h⟩ := bind_eq_ok_iff.mp h
    obtain rfl := Except.ok.inj h
    obtain ⟨more, hmore, hchars⟩ := hostKey_pieces (dir.join ⟨"known_hosts"⟩) approval
    refine words_command _ ?_ (by decide) (List.rel_append hbatch hmore)
    rw [String.append_assoc, String.toList_append, htext, ← hchars, List.append_assoc, ← arguments_append]

/-- A machine with every identity file, and a blank in the path of its private directory. -/
def keyedMachine : Machine :=
  { twoKeys with
    isFile := fun _ => true
    privateDir := .ok ⟨"/tmp/Dev's clones"⟩ }

/-- What Git is started with there, for an identity file and an approved host key. -/
def quotedLaunch : Launch where
  sshCommand := "ssh -o BatchMode=yes -o IdentitiesOnly=yes -i " ++ posixQuote "/keys/Dev's key" ++
    " -o StrictHostKeyChecking=yes -o UserKnownHostsFile=" ++ posixQuote "/tmp/Dev's clones/known_hosts"
  knownHosts := some (terminated [rsaKey, ed25519Key])

/-- An identity file and a file of known hosts with a blank and a quote in their paths. -/
theorem sshCommand_words_quoted : ∃ dir, keyedMachine.privateDir = .ok dir ∧ words quotedLaunch.sshCommand =
    some ["ssh", "-o", "BatchMode=yes", "-o", "IdentitiesOnly=yes", "-i", "/keys/Dev's key", "-o",
      "StrictHostKeyChecking=yes", "-o", "UserKnownHostsFile=" ++ (dir.join ⟨"known_hosts"⟩).text] :=
  @sshCommand_words keyedMachine "git@example.invalid:team/repo.git" (some ⟨"/keys/Dev's key"⟩)
    (some ⟨"example.invalid", "SHA256:rsa-print"⟩) quotedLaunch (by decide +kernel)

/-! ### Operations and suggestions -/

/-- **An operation of the terminal interface** runs the executable with the command and the
bundle, and with nothing else. -/
theorem cliShellSpec_words (executable : PathBuf) (command : String) (bundle : PathBuf) (confirmed : Bool) :
    words (cliShellSpec executable command bundle confirmed) =
      some (["exec", executable.text, command, bundle.text] ++ if confirmed then ["--yes"] else []) := by
  have hquoted : Spell [shellQuote executable.text, shellQuote command, shellQuote bundle.text]
      [executable.text, command, bundle.text] :=
    .cons (spells_shellQuote _) (.cons (spells_shellQuote _) (.cons (spells_shellQuote _) .nil))
  have hflag : Spell (if confirmed then ["--yes"] else []) (if confirmed then ["--yes"] else []) := by
    cases confirmed
    · exact .nil
    · exact spell_self ["--yes"] (by decide)
  refine words_command ([shellQuote executable.text, shellQuote command, shellQuote bundle.text] ++
    if confirmed then ["--yes"] else []) ?_ (by decide) (List.rel_append hquoted hflag)
  cases confirmed <;> simp [cliShellSpec]

/-- The command that installs the daemon names the project, whatever its path is. -/
theorem installCommand_words (workspaceRoot : PathBuf) :
    words (installCommand workspaceRoot) = some ["apmpr", "daemon", "install", workspaceRoot.text] := by
  have hpieces : Spell (["daemon", "install"] ++ [shellQuote workspaceRoot.text])
      (["daemon", "install"] ++ [workspaceRoot.text]) :=
    List.rel_append (spell_self _ (by decide)) (.cons (spells_shellQuote _) .nil)
  have hstart : "apmpr daemon install ".toList = "apmpr".toList ++ arguments ["daemon", "install"] ++ [' '] := by decide
  refine words_command (["daemon", "install"] ++ [shellQuote workspaceRoot.text]) ?_ (by decide) hpieces
  calc (installCommand workspaceRoot).toList
      = "apmpr daemon install ".toList ++ (shellQuote workspaceRoot.text).toList := String.toList_append
    _ = ("apmpr".toList ++ arguments ["daemon", "install"] ++ [' ']) ++ (shellQuote workspaceRoot.text).toList :=
        congrArg (· ++ _) hstart
    _ = "apmpr".toList ++ arguments (["daemon", "install"] ++ [shellQuote workspaceRoot.text]) := by
        simp

end Apmpr.Ops.ShellCommands
