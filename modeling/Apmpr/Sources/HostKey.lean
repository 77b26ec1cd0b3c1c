import Apmpr.Lib.Keyed
import Apmpr.Lib.Lines
import Apmpr.Lib.Registry

/-!
# Approved host keys

A clone over SSH that was started from the browser, up to the command that is given to Git
(`run_git_clone_browser_with_program`). Where the user has approved a host key, the host is
scanned once more (`scan_ssh_host_with_programs`), the approval is matched against the scan, and
the scanned keys are written to a file of their own, which is all that SSH is told to trust.

`ssh-keyscan` and `ssh-keygen` are programs outside: what they answer to their arguments and
input is part of a `Machine`, and of `ssh-keygen -lf -` it is assumed where needed that its
listing has fingerprints of the keys it was given (`ListsFingerprints`).

**`approved_key_offered`** says what a clone that is started trusts: exactly the keys a scan of
the approved host has shown, one of which has the approved fingerprint. It trusts all of them:
`other_keys_trusted` is a host with two keys.
-/

namespace Apmpr.Sources.HostKey

/-- `SourceError`. -/
structure SourceError where
  code : String
  message : String
  deriving DecidableEq

/-- `ApprovedHostKey`. -/
structure ApprovedHostKey where
  host : String
  fingerprint : String
  deriving DecidableEq

/-- `ScannedHostKey`. -/
structure ScannedHostKey where
  host : String
  fingerprints : List String
  keys : List UInt8
  deriving DecidableEq

/-- `matches`. -/
def ScannedHostKey.matchesApproval (scanned : ScannedHostKey) (approval : ApprovedHostKey) : Bool :=
  scanned.host = approval.host && scanned.fingerprints.contains approval.fingerprint

/-- How far `ssh-keygen` came: each step may fail with a text, and at its end there is whether it
succeeded and what it printed, decoded. -/
inductive KeygenRun where
  | notStarted (error : String)
  | notWritten (error : String)
  | lost (error : String)
  | ended (success : Bool) (listing : String)

/-- What is outside: the programs that scan a host and list fingerprints, the files, and the
directory of a clone. -/
structure Machine where
  /-- `ssh-keyscan` with its arguments: an error, or whether it succeeded and what it printed. -/
  keyscan : List String → Except String (Bool × List UInt8)
  /-- `ssh-keygen -lf -` with its input. -/
  keygen : List UInt8 → KeygenRun
  isFile : PathBuf → Bool
  /-- The private directory of a clone, if it can be made. -/
  privateDir : Except String PathBuf
  /-- Writing the known hosts there may fail. -/
  writeKnownHosts : Except String Unit

/-! ### Scanning a host -/

/-- The part of a text after the last separator. -/
def lastPart (separator : Char) (text : String) : String :=
  match Text.rsplitOnce separator text with
  | some (_, last) => last
  | none => text

/-- The part of a text before the first separator. -/
def firstPart (separator : Char) (text : String) : String :=
  match Text.splitOnce separator text with
  | some (first, _) => first
  | none => text

/-- `str::parse::<u16>`, where it succeeds. -/
def parsePort (text : String) : Option U16 :=
  let digits := if text.toList.head? = some '+' then text.toList.tail else text.toList
  if digits.isEmpty || !digits.all Text.isAsciiDigit then none
  else if h : Nat.ofDigitChars 10 digits 0 < 65536 then some ⟨Nat.ofDigitChars 10 digits 0, h⟩ else none

/-- `ssh_host`. -/
def sshHost (repository : String) : Option (String × Option U16) :=
  match Text.afterStart "ssh://" repository with
  | some remainder =>
    let hostPort := lastPart '@' (firstPart '/' remainder)
    match Text.afterStart "[" hostPort with
    | some bracketed => (Text.splitOnce ']' bracketed).map fun parts =>
        (parts.1, (Text.afterStart ":" parts.2).bind parsePort)
    | none =>
      match Text.rsplitOnce ':' hostPort with
      | some (host, port) => some (host, parsePort port)
      | none => some (hostPort, none)
  | none =>
    let host := lastPart '@' (firstPart ':' repository)
    if !Text.contains host "/" && host ≠ "" then some (host, none) else none

/-- The arguments of the scan. -/
def scanArguments (host : String) : Option U16 → List String
  | some port => ["-p", toString port.val, host]
  | none => [host]

/-- The second field of a line. -/
def secondField (line : List Char) : Option String :=
  (((line.splitOnP Text.isWhitespace).filter (· ≠ []))[1]?).map String.ofList

/-- The fingerprints of a listing, as they stand there. -/
def listedFingerprints (listing : String) : List String := (Text.lines listing.toList).filterMap secondField

/-- Texts sorted, without duplicates. -/
def sortedSet (texts : List String) : List String := (SortedMap.ofList (texts.map fun text => (text, ()))).keys

/-- The lines of a scan that are keys: not empty and no comments. -/
def keyLines (scan : List UInt8) : List (List UInt8) :=
  (scan.splitOn 10).filter fun line => !line.isEmpty && line.head? ≠ some 35

/-- Lines of bytes, each with a newline after it. -/
def terminated (lines : List (List UInt8)) : List UInt8 := lines.flatMap (· ++ [10])

/-- What `ssh-keyscan` shows of a host. -/
def runKeyscan (machine : Machine) (host : String) (port : Option U16) : Except SourceError (List UInt8) :=
  match machine.keyscan (scanArguments host port) with
  | .error error => .error ⟨"ssh_keyscan_unavailable", s!"could not scan SSH host key: {error}"⟩
  | .ok (success, scan) =>
    if !success || scan.isEmpty then .error ⟨"clone_host_key_unavailable", "could not retrieve the SSH host key"⟩
    else .ok scan

/-- What `ssh-keygen` lists of a scan. -/
def runKeygen (machine : Machine) (scan : List UInt8) : Except SourceError String :=
  match machine.keygen scan with
  | .notStarted error => .error ⟨"ssh_keygen_unavailable", error⟩
  | .notWritten error => .error ⟨"source_io", error⟩
  | .lost error => .error ⟨"ssh_keygen_failed", error⟩
  | .ended success listing =>
    if !success then .error ⟨"ssh_keygen_failed", "could not fingerprint the scanned SSH host key"⟩ else .ok listing

/-- A scan and its listing, put together. -/
def scannedHostKey (host : String) (scan : List UInt8) (listing : String) : Except SourceError ScannedHostKey :=
  if (listedFingerprints listing).isEmpty then
    .error ⟨"ssh_keygen_failed", "SSH host fingerprint output was invalid"⟩
  else if (keyLines scan).isEmpty then
    .error ⟨"clone_host_key_unavailable", "the SSH host scan returned no public key"⟩
  else .ok ⟨host, sortedSet (listedFingerprints listing), terminated (keyLines scan)⟩

/-- `scan_ssh_host_with_programs`. -/
def scanSshHost (machine : Machine) (repository : String) : Except SourceError ScannedHostKey :=
  match sshHost repository with
  | none =>
    .error ⟨"clone_host_key_unavailable", "could not determine the SSH host from the repository URL"⟩
  | some (host, port) => do
    let scan ← runKeyscan machine host port
    let listing ← runKeygen machine scan
    scannedHostKey host scan listing

/-! ### Starting the clone -/

/-- Whether a character is a control character. -/
def isControl (c : Char) : Bool := c.toNat < 0x20 || (0x7f ≤ c.toNat && c.toNat < 0xa0)

/-- `validate_ssh_identity`. -/
def validateSshIdentity (machine : Machine) (path : PathBuf) : Except SourceError Unit :=
  if path.isEmpty || path.text.toList.any isControl then
    .error ⟨"invalid_identity_file", "SSH identity file path cannot be empty or contain control characters"⟩
  else if !machine.isFile path then
    .error ⟨"identity_file_not_found", s!"SSH identity file `{path.text}` does not exist"⟩
  else .ok ()

/-- `posix_quote`: single quotes around a text, and those inside of it in double quotes. -/
def posixQuote (value : String) : String :=
  let single := Char.ofNat 39
  let double := Char.ofNat 34
  String.ofList (single :: (value.toList.flatMap fun c =>
    if c = single then [single, double, single, double, single] else [c]) ++ [single])

/-- `ssh_clone_command`. -/
def sshCloneCommand (machine : Machine) : Option PathBuf → Except SourceError String
  | none => .ok "ssh -o BatchMode=yes"
  | some path => do
    validateSshIdentity machine path
    return "ssh -o BatchMode=yes" ++ " -o IdentitiesOnly=yes -i " ++ posixQuote path.text

/-- What Git is started with: the command for SSH, and the file of known hosts beside it, if one
was written. -/
structure Launch where
  sshCommand : String
  knownHosts : Option (List UInt8)
  deriving DecidableEq

/-- An error of the file system. -/
def fileResult {α : Type} : Except String α → Except SourceError α
  | .ok a => .ok a
  | .error error => .error ⟨"source_io", error⟩

/-- A scan has to match the approval. -/
def approved (scanned : ScannedHostKey) (approval : ApprovedHostKey) : Except SourceError Unit :=
  if !scanned.matchesApproval approval then
    .error ⟨"host_key_changed", "the SSH host key no longer matches the approved fingerprint"⟩
  else .ok ()

/-- `run_git_clone_browser_with_program`, up to the start of Git. -/
def launchClone (machine : Machine) (repository : String) (identity : Option PathBuf)
    (approval : Option ApprovedHostKey) : Except SourceError Launch := do
  let dir ← fileResult machine.privateDir
  let command ← sshCloneCommand machine identity
  match approval with
  | none => return ⟨command, none⟩
  | some approval =>
    let scanned ← scanSshHost machine repository
    approved scanned approval
    fileResult machine.writeKnownHosts
    return ⟨command ++ " -o StrictHostKeyChecking=yes -o UserKnownHostsFile=" ++
      posixQuote (dir.join ⟨"known_hosts"⟩).text, some scanned.keys⟩

/-! ### What is trusted -/

section Trusted

variable {machine : Machine} {repository : String} {identity : Option PathBuf} {approval : ApprovedHostKey}

/-- What `ssh-keygen -lf -` is for: a fingerprint it lists is one of a key in its input. -/
def ListsFingerprints (keygen : List UInt8 → KeygenRun) (fingerprint : List UInt8 → Option String) : Prop :=
  ∀ input listing, keygen input = .ended true listing → ∀ text ∈ listedFingerprints listing,
    ∃ line ∈ keyLines input, fingerprint line = some text

theorem terminated_eq_intercalate (ls : List (List UInt8)) : terminated ls = [10].intercalate (ls ++ [[]]) := by
  induction ls with
  | nil => rfl
  | cons line ls ih =>
    obtain ⟨next, rest, hrest⟩ := List.exists_cons_of_ne_nil (List.append_ne_nil_of_right_ne_nil ls (List.cons_ne_nil [] []))
    rw [hrest] at ih
    rw [List.cons_append, hrest, List.intercalate_cons_cons, ← ih, terminated, List.flatMap_cons]
    rfl

/-- A part of a split has no separator. -/
theorem not_mem_of_mem_splitOnP {α : Type*} {p : α → Bool} {xs part : List α} (h : part ∈ xs.splitOnP p) {x : α}
    (hx : x ∈ part) : p x = false := by
  induction xs generalizing part with
  | nil =>
    rw [List.splitOnP_nil, List.mem_singleton] at h
    rw [h] at hx
    cases hx
  | cons a xs ih =>
    rw [List.splitOnP_cons_eq_if_modifyHead] at h
    split_ifs at h with ha
    · rcases List.mem_cons.mp h with rfl | h
      · cases hx
      · exact ih h hx
    · obtain ⟨first, rest, hsplit⟩ := List.exists_cons_of_ne_nil (List.splitOnP_ne_nil p xs)
      rw [hsplit] at h ih
      rcases List.mem_cons.mp h with rfl | h
      · rcases List.mem_cons.mp hx with rfl | hx
        · simpa using ha
        · exact ih List.mem_cons_self hx
      · exact ih (List.mem_cons_of_mem _ h) hx

/-- Key lines that are written are the key lines of what was written. -/
theorem keyLines_terminated (scan : List UInt8) : keyLines (terminated (keyLines scan)) = keyLines scan := by
  have hnewline : ∀ line ∈ keyLines scan ++ [[]], (10 : UInt8) ∉ line := by
    intro line hline hmem
    rcases List.mem_append.mp hline with hline | hline
    · have hpart := (List.mem_filter.mp hline).1
      rw [List.splitOn_eq_splitOnP] at hpart
      simpa using not_mem_of_mem_splitOnP hpart hmem
    · rw [List.mem_singleton.mp hline] at hmem
      cases hmem
  have hsplit : (terminated (keyLines scan)).splitOn 10 = keyLines scan ++ [[]] := by
    rw [terminated_eq_intercalate, List.splitOn_intercalate _ hnewline (by simp)]
  rw [keyLines, hsplit, List.filter_append, keyLines, List.filter_filter]
  simp

theorem scanSshHost_ok {scanned : ScannedHostKey} (h : scanSshHost machine repository = .ok scanned) :
    ∃ port scan listing, sshHost repository = some (scanned.host, port) ∧
      machine.keyscan (scanArguments scanned.host port) = .ok (true, scan) ∧ machine.keygen scan = .ended true listing ∧
      scanned.fingerprints = sortedSet (listedFingerprints listing) ∧ scanned.keys = terminated (keyLines scan) := by
  unfold scanSshHost at h
  cases hhost : sshHost repository with
  | none =>
    rw [hhost] at h
    cases h
  | some found =>
    obtain ⟨host, port⟩ := found
    rw [hhost] at h
    obtain ⟨scan, hscan, h⟩ := bind_eq_ok_iff.mp h
    obtain ⟨listing, hlisting, h⟩ := bind_eq_ok_iff.mp h
    unfold scannedHostKey at h
    split_ifs at h
    obtain rfl := Except.ok.inj h
    refine ⟨port, scan, listing, rfl, ?_, ?_, rfl, rfl⟩
    · unfold runKeyscan at hscan
      split at hscan
      · cases hscan
      · rename_i success output houtput
        split_ifs at hscan with hfailed
        obtain rfl := Except.ok.inj hscan
        have hsuccess : success = true := by
          by_contra hfalse
          exact hfailed (by simp [hfalse])
        rw [houtput, hsuccess]
    · unfold runKeygen at hlisting
      split at hlisting
      · cases hlisting
      · cases hlisting
      · cases hlisting
      · rename_i success output houtput
        split_ifs at hlisting with hfailed
        obtain rfl := Except.ok.inj hlisting
        rw [houtput, show success = true by simpa using hfailed]

theorem mem_sortedSet_iff {texts : List String} {text : String} : text ∈ sortedSet texts ↔ text ∈ texts := by
  rw [sortedSet, mem_keys_ofList]
  simp

/-- **What an approved clone trusts**: the keys that a scan of the approved host has shown, all of
them, one of which has the approved fingerprint. -/
theorem approved_key_offered {fingerprint : List UInt8 → Option String}
    (hkeygen : ListsFingerprints machine.keygen fingerprint) {launch : Launch}
    (h : launchClone machine repository identity (some approval) = .ok launch) :
    ∃ port scan file, sshHost repository = some (approval.host, port) ∧
      machine.keyscan (scanArguments approval.host port) = .ok (true, scan) ∧ launch.knownHosts = some file ∧
      keyLines file = keyLines scan ∧ ∃ line ∈ keyLines file, fingerprint line = some approval.fingerprint := by
  obtain ⟨dir, -, h⟩ := bind_eq_ok_iff.mp h
  obtain ⟨command, -, h⟩ := bind_eq_ok_iff.mp h
  obtain ⟨scanned, hscanned, h⟩ := bind_eq_ok_iff.mp h
  obtain ⟨⟨⟩, hmatches, h⟩ := bind_eq_ok_iff.mp h
  obtain ⟨⟨⟩, -, h⟩ := bind_eq_ok_iff.mp h
  obtain rfl := Except.ok.inj h
  obtain ⟨port, scan, listing, hhost, hscan, hlisting, hfingerprints, hkeys⟩ := scanSshHost_ok hscanned
  unfold approved at hmatches
  split_ifs at hmatches with hrefused
  have hmatch : scanned.matchesApproval approval = true := by simpa using hrefused
  rw [ScannedHostKey.matchesApproval, Bool.and_eq_true, decide_eq_true_eq, List.contains_iff_mem, hfingerprints,
    mem_sortedSet_iff] at hmatch
  obtain ⟨rhost, hlisted⟩ := hmatch
  obtain ⟨line, hline, hprint⟩ := hkeygen scan listing hlisting _ hlisted
  refine ⟨port, scan, _, rhost ▸ hhost, rhost ▸ hscan, rfl, ?_, line, ?_, hprint⟩
  · rw [hkeys, keyLines_terminated]
  · rw [hkeys, keyLines_terminated]
    exact hline

end Trusted

/-! ### A host with two keys -/

/-- The first key of a host. -/
def rsaKey : List UInt8 := "example.invalid ssh-rsa AAAARSA".toList.map fun c => UInt8.ofNat c.toNat

/-- The second one. -/
def ed25519Key : List UInt8 := "example.invalid ssh-ed25519 AAAAED".toList.map fun c => UInt8.ofNat c.toNat

/-- Their fingerprints. -/
def keyFingerprint (line : List UInt8) : Option String :=
  if line = rsaKey then some "SHA256:rsa-print" else if line = ed25519Key then some "SHA256:ed25519-print" else none

/-- A machine on which the host shows both keys, and `ssh-keygen` lists both fingerprints. -/
def twoKeys : Machine where
  keyscan _ := .ok (true, terminated [rsaKey, ed25519Key])
  keygen input :=
    if input = terminated [rsaKey, ed25519Key] then
      .ended true "3072 SHA256:rsa-print example.invalid (RSA)\n256 SHA256:ed25519-print example.invalid (ED25519)\n"
    else .ended false ""
  isFile _ := false
  privateDir := .ok ⟨"/tmp/apmpr-clone-1"⟩
  writeKnownHosts := .ok ()

theorem listsFingerprints_twoKeys : ListsFingerprints twoKeys.keygen keyFingerprint := by
  intro input listing hlisting text htext
  change (if input = _ then KeygenRun.ended true _ else .ended false "") = _ at hlisting
  split_ifs at hlisting with hinput
  · obtain ⟨-, rfl⟩ := KeygenRun.ended.inj hlisting
    subst hinput
    have hlisted : listedFingerprints
        "3072 SHA256:rsa-print example.invalid (RSA)\n256 SHA256:ed25519-print example.invalid (ED25519)\n" =
          ["SHA256:rsa-print", "SHA256:ed25519-print"] := by decide +kernel
    have hlines : keyLines (terminated [rsaKey, ed25519Key]) = [rsaKey, ed25519Key] := by decide +kernel
    rw [hlisted] at htext
    rw [hlines]
    simp only [List.mem_cons, List.not_mem_nil, or_false] at htext
    rcases htext with rfl | rfl
    · exact ⟨rsaKey, by simp, by decide +kernel⟩
    · exact ⟨ed25519Key, by simp, by decide +kernel⟩
  · cases hlisting

/-- What Git is started with where the first key is approved. -/
def rsaLaunch : Launch where
  sshCommand := "ssh -o BatchMode=yes -o StrictHostKeyChecking=yes -o UserKnownHostsFile=" ++
    posixQuote "/tmp/apmpr-clone-1/known_hosts"
  knownHosts := some (terminated [rsaKey, ed25519Key])

theorem launchClone_rsa : launchClone twoKeys "git@example.invalid:team/repo.git" none
    (some ⟨"example.invalid", "SHA256:rsa-print"⟩) = .ok rsaLaunch := by
  decide +kernel

/-- A clone whose approved key is the first one. -/
theorem approved_key_offered_rsa : ∃ file, rsaLaunch.knownHosts = some file ∧
    ∃ line ∈ keyLines file, keyFingerprint line = some "SHA256:rsa-print" := by
  obtain ⟨port, scan, file, -, -, hfile, -, hline⟩ := approved_key_offered listsFingerprints_twoKeys launchClone_rsa
  exact ⟨file, hfile, hline⟩

/-- The first key is approved, and the file that is trusted has the other one too. -/
theorem other_keys_trusted : ListsFingerprints twoKeys.keygen keyFingerprint ∧
    launchClone twoKeys "git@example.invalid:team/repo.git" none (some ⟨"example.invalid", "SHA256:rsa-print"⟩) =
      .ok rsaLaunch ∧
    ∃ file, rsaLaunch.knownHosts = some file ∧
      ∃ line ∈ keyLines file, keyFingerprint line ≠ some "SHA256:rsa-print" := by
  refine ⟨listsFingerprints_twoKeys, launchClone_rsa, _, rfl, ed25519Key, ?_, ?_⟩
  · decide +kernel
  · decide +kernel

end Apmpr.Sources.HostKey
