import LocalDesk.Data.Percent
import LocalDesk.Remote.ProfileStore

/-!
# Secrets

A secret is handed to a program that keeps it, and asked back from it by its identifier.  The
program returns the bytes as they were stored, or with a line feed behind them, and the reader takes
one line ending off whatever comes back.
-/

namespace LocalDesk
namespace Remote

open Checks

def maxSecretInputBytes : Nat := 8 * 1024

inductive SecretKind where
  | password
  | privateKey
  | keyPassphrase
  deriving DecidableEq

inductive SecretCommand where
  | store (kind : SecretKind) (value : List UInt8)
  | delete (reference : SecretRef)
  deriving DecidableEq

inductive SecretCommandResult where
  | stored (reference : SecretRef)
  | deleted
  deriving DecidableEq

inductive ProfileInputError where
  | invalidSecretInput
  deriving DecidableEq

def SecretCommand.validate : SecretCommand → Except ProfileInputError Unit
  | .store _ value => refuseIf (value = [] ∨ maxSecretInputBytes < value.length) .invalidSecretInput
  | .delete _ => .ok ()

inductive SecretStoreError where
  | locked (reason : SafeReason)
  | permissionDenied (reason : SafeReason)
  | unavailable (reason : SafeReason)
  | notFound (reason : SafeReason)
  | backend (reason : SafeReason)
  deriving DecidableEq

inductive ToolExit where
  | success
  | failure
  | unknown
  | timedOut
  deriving DecidableEq

/-- What a run of the program comes to before it has any effect. -/
structure ToolRun where
  executable : Bool
  spawns : Bool
  takesInput : Bool
  exit : ToolExit
  deriving DecidableEq

def ToolRun.faultless : ToolRun := ⟨true, true, true, .success⟩

inductive Ending where
  | none
  | lineFeed
  deriving DecidableEq

def Ending.output (ending : Ending) (bytes : List UInt8) : List UInt8 :=
  match ending with
  | .none => bytes
  | .lineFeed => bytes ++ [10]

abbrev Keyring : Type := Uuid → Option (List UInt8)

def secretInputInvalid : RemoteRuntimeError :=
  ⟨"secret_input_invalid", "secret_input_invalid", false⟩

def secretStoreUnavailable : RemoteRuntimeError :=
  ⟨"secret_store_unavailable", "secret_service_unavailable", true⟩

def secretToolNotInstalled : RemoteRuntimeError :=
  ⟨"secret_store_unavailable", "secret_tool_not_installed", false⟩

def waitSecretTool : ToolExit → Except RemoteRuntimeError Unit
  | .success => .ok ()
  | .failure => .error ⟨"secret_store_failed", "secret_service_operation_failed", true⟩
  | .unknown => .error secretStoreUnavailable
  | .timedOut => .error ⟨"secret_store_timeout", "secret_service_operation_timed_out", true⟩

def secretKindCode : SecretKind → String
  | .password => "password"
  | .privateKey => "private_key"
  | .keyPassphrase => "key_passphrase"

structure ToolCall where
  arguments : List String
  input : List UInt8
  deriving DecidableEq

def storeCall (itemId : Uuid) (kind : SecretKind) (value : List UInt8) : ToolCall :=
  ⟨["store", "--label=LocalDesk remote credential", "localdesk-item-id", itemId.text,
    "localdesk-secret-kind", secretKindCode kind], value⟩

def runTool (run : ToolRun) : Except RemoteRuntimeError Unit := do
  refuseIf (run.spawns = false ∨ run.takesInput = false) secretStoreUnavailable
  waitSecretTool run.exit

/-- A command with a fresh identifier, and the keyring after it.  The program keeps what it has
read when it ends well. -/
def secretCommand (run : ToolRun) (itemId : Uuid) (command : SecretCommand) (keyring : Keyring) :
    Except RemoteRuntimeError (SecretCommandResult × Keyring) := do
  command.validate.mapError fun _ => secretInputInvalid
  refuseIf (run.executable = false) secretToolNotInstalled
  match command with
  | .store kind value =>
    refuseIf (Text.fromUtf8 value = none) secretInputInvalid
    runTool run
    return (.stored ⟨.secretService, itemId⟩,
      Function.update keyring itemId (some (storeCall itemId kind value).input))
  | .delete reference =>
    runTool { run with takesInput := true }
    return (.deleted, Function.update keyring reference.itemId none)

def secretServiceUnavailable : SafeReason := ⟨"secret_service_unavailable"⟩

def dropLineEnding (bytes : List UInt8) : List UInt8 :=
  if bytes.getLast? = some 10 then
    if bytes.dropLast.getLast? = some 13 then bytes.dropLast.dropLast else bytes.dropLast
  else bytes

/-- The bytes that the program writes, of which no more are read than a secret and a line ending
may have.  It fails when it has no such secret. -/
def lookup (run : ToolRun) (ending : Ending) (keyring : Keyring) (itemId : Uuid) :
    List UInt8 × ToolExit :=
  match keyring itemId with
  | some bytes => ((ending.output bytes).take (maxSecretInputBytes + 2), run.exit)
  | none => ([], .failure)

def resolveReference (run : ToolRun) (ending : Ending) (keyring : Keyring) (reference : SecretRef) :
    Except SecretStoreError (List UInt8) := do
  refuseIf (reference.backend ≠ .secretService ∨ run.executable = false ∨ run.spawns = false)
    (.unavailable secretServiceUnavailable)
  let output := lookup run ending keyring reference.itemId
  (waitSecretTool output.2).mapError fun _ => .backend ⟨"secret_service_lookup_failed"⟩
  let bytes := dropLineEnding output.1
  refuseIf (bytes = []) (.notFound ⟨"secret_not_found"⟩)
  refuseIf (maxSecretInputBytes < bytes.length) (.backend ⟨"secret_service_value_too_large"⟩)
  return bytes

def Ending.mistaken : Ending → UInt8
  | .none => 10
  | .lineFeed => 13

section RoundTrip

variable {run : ToolRun} {itemId : Uuid} {kind : SecretKind} {secret : List UInt8}
  {keyring keyring' : Keyring} {reference : SecretRef}

theorem store_ok (h : secretCommand run itemId (.store kind secret) keyring =
      .ok (.stored reference, keyring')) :
    secret ≠ [] ∧ secret.length ≤ maxSecretInputBytes ∧ reference = ⟨.secretService, itemId⟩ ∧
      keyring' itemId = some secret := by
  rw [secretCommand] at h
  obtain ⟨hvalid, h⟩ := check_ok.mp h
  obtain ⟨-, h⟩ := check_ok.mp h
  obtain ⟨-, h⟩ := check_ok.mp h
  obtain ⟨-, h⟩ := check_ok.mp h
  have hbounds := refuseIf_ok.mp (mapError_ok.mp hvalid)
  rw [not_or, not_lt] at hbounds
  cases h
  refine ⟨hbounds.1, hbounds.2, rfl, ?_⟩
  rw [Function.update_self]
  rfl

theorem dropLineEnding_output (ending : Ending) (bytes : List UInt8) :
    dropLineEnding (ending.output bytes) = bytes ↔ bytes.getLast? ≠ some ending.mistaken := by
  have hshorter : ∀ rest : List UInt8, rest ≠ [] → rest.dropLast ≠ rest := by
    intro rest hne heq
    have hlength := congrArg List.length heq
    have hpos := List.length_pos_iff.mpr hne
    rw [List.length_dropLast] at hlength
    omega
  have hnonempty : ∀ b, bytes.getLast? = some b → bytes ≠ [] := by
    intro b hlast hnil
    rw [hnil] at hlast
    cases hlast
  cases ending with
  | none =>
    show dropLineEnding bytes = bytes ↔ bytes.getLast? ≠ some 10
    unfold dropLineEnding
    by_cases hlast : bytes.getLast? = some 10
    · rw [if_pos hlast]
      constructor
      · intro heq
        have hpos := List.length_pos_iff.mpr (hnonempty 10 hlast)
        have hlength := congrArg List.length heq
        split_ifs at hlength
        · rw [List.length_dropLast, List.length_dropLast] at hlength
          omega
        · rw [List.length_dropLast] at hlength
          omega
      · exact fun hne => absurd hlast hne
    · rw [if_neg hlast]
      exact ⟨fun _ => hlast, fun _ => rfl⟩
  | lineFeed =>
    show dropLineEnding (bytes ++ [10]) = bytes ↔ bytes.getLast? ≠ some 13
    have hfeed : (bytes ++ [10]).getLast? = some (10 : UInt8) := by simp
    have hdrop : (bytes ++ [(10 : UInt8)]).dropLast = bytes := by simp
    rw [dropLineEnding, if_pos hfeed, hdrop]
    by_cases hlast : bytes.getLast? = some 13
    · rw [if_pos hlast]
      exact ⟨fun heq => absurd heq (hshorter bytes (hnonempty 13 hlast)),
        fun hne => absurd hlast hne⟩
    · rw [if_neg hlast]
      exact ⟨fun _ => hlast, fun _ => rfl⟩

theorem resolveReference_stored (ending : Ending) (hne : secret ≠ [])
    (hlength : secret.length ≤ maxSecretInputBytes) (hstored : keyring itemId = some secret) :
    resolveReference .faultless ending keyring ⟨.secretService, itemId⟩ = .ok secret ↔
      dropLineEnding (ending.output secret) = secret := by
  have houtput : (ending.output secret).take (maxSecretInputBytes + 2) = ending.output secret := by
    apply List.take_of_length_le
    cases ending with
    | none => exact hlength.trans (Nat.le_add_right _ _)
    | lineFeed =>
      show (secret ++ [10]).length ≤ _
      rw [List.length_append, List.length_singleton]
      omega
  have hlookup : lookup .faultless ending keyring itemId = (ending.output secret, .success) := by
    rw [lookup, hstored]
    dsimp only
    rw [houtput]
    rfl
  rw [resolveReference]
  constructor
  · intro hresolved
    obtain ⟨-, hresolved⟩ := check_ok.mp hresolved
    obtain ⟨-, hresolved⟩ := check_ok.mp hresolved
    obtain ⟨-, hresolved⟩ := check_ok.mp hresolved
    obtain ⟨-, hresolved⟩ := check_ok.mp hresolved
    have hbytes := Except.ok.inj hresolved
    rw [hlookup] at hbytes
    exact hbytes
  · intro hsame
    dsimp only
    rw [hlookup]
    refine check_ok.mpr ⟨rfl, check_ok.mpr ⟨rfl, ?_⟩⟩
    dsimp only
    rw [hsame]
    exact check_ok.mpr ⟨refuseIf_ok.mpr hne, check_ok.mpr ⟨refuseIf_ok.mpr (not_lt.mpr hlength), rfl⟩⟩

/-- A secret that was stored is resolved exactly when it does not end in the byte that is mistaken
for the end of its line. -/
theorem secret_roundTrip_iff (ending : Ending)
    (h : secretCommand run itemId (.store kind secret) keyring =
      .ok (.stored reference, keyring')) :
    resolveReference .faultless ending keyring' reference = .ok secret ↔
      secret.getLast? ≠ some ending.mistaken := by
  obtain ⟨hne, hlength, rfl, hstored⟩ := store_ok h
  rw [resolveReference_stored ending hne hlength hstored]
  exact dropLineEnding_output ending secret

end RoundTrip

/-! A secret that ends in a line feed. -/

def keyBytes : List UInt8 := [75, 69, 89, 10]

theorem store_key : secretCommand .faultless ⟨7⟩ (.store .privateKey keyBytes) (fun _ => none) =
    .ok (.stored ⟨.secretService, ⟨7⟩⟩, Function.update (fun _ => none) ⟨7⟩ (some keyBytes)) := by
  have hvalid : (SecretCommand.store .privateKey keyBytes).validate = .ok () := rfl
  have htext : ¬ Text.fromUtf8 keyBytes = none := by decide +kernel
  rw [secretCommand, hvalid]
  show (refuseIf (Text.fromUtf8 keyBytes = none) secretInputInvalid >>= _) = _
  rw [refuseIf, if_neg htext]
  rfl

/-- The line feed at the end of a secret is lost. -/
theorem secret_loses_line_feed :
    ∃ (kind : SecretKind) (secret : List UInt8) (itemId : Uuid) (keyring keyring' : Keyring)
      (reference : SecretRef) (ending : Ending),
      secretCommand .faultless itemId (.store kind secret) keyring =
        .ok (.stored reference, keyring') ∧
      resolveReference .faultless ending keyring' reference ≠ .ok secret := by
  refine ⟨.privateKey, keyBytes, ⟨7⟩, fun _ => none, _, _, .none, store_key, ?_⟩
  have hresolved : resolveReference .faultless .none
      (Function.update (fun _ => none) ⟨7⟩ (some keyBytes)) ⟨.secretService, ⟨7⟩⟩ =
        .ok [75, 69, 89] := by decide +kernel
  rw [hresolved]
  decide

theorem secret_roundTrip_iff_key :
    resolveReference .faultless .lineFeed
      (Function.update (fun _ => none) ⟨7⟩ (some keyBytes)) ⟨.secretService, ⟨7⟩⟩ = .ok keyBytes :=
  (secret_roundTrip_iff .lineFeed store_key).mpr (by decide)

end Remote
end LocalDesk
