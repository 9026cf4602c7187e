import LocalDesk.Data.Checks
import LocalDesk.Data.Text
import LocalDesk.Remote.Core

/-!
# Connection profiles

A profile says how to reach a host and what to trust there.  `validate` checks its texts and
that the protocol, the options, the trust policy and the authentication belong together.  A
profile arrives by deserialisation, which checks none of this, so the types here admit every
value and the store and the adapters validate again.
-/

namespace LocalDesk
namespace Remote

open Checks

theorem ProfileId.uuid_injective : Function.Injective ProfileId.uuid := by
  intro a b h
  cases a
  cases b
  simp_all

instance ProfileId.instLinearOrder : LinearOrder ProfileId :=
  @LinearOrder.lift' _ _ Uuid.instLinearOrder ProfileId.uuid ProfileId.uuid_injective

structure RemoteEndpoint where
  host : String
  port : Nat
  deriving DecidableEq

inductive SecretBackend where
  | secretService
  deriving DecidableEq

structure SecretRef where
  backend : SecretBackend
  itemId : Uuid
  deriving DecidableEq

inductive Authentication where
  | anonymous
  | password (secret : SecretRef)
  | sshAgent
  | sshKey (privateKey : SecretRef) (passphrase : Option SecretRef)
  | kerberos
  deriving DecidableEq

inductive FirstUsePolicy where
  | reject
  | askUser
  deriving DecidableEq

inductive TrustPolicy where
  | sshKnownHosts (firstUse : FirstUsePolicy)
  | systemTls
  | pinnedTlsCertificate (certificatePem : String)
  | plaintextAcknowledged
  | smbNegotiated
  deriving DecidableEq

def maxPinnedTlsCertificateBytes : Nat := 16 * 1024

inductive DataConnectionMode where
  | passive
  | activeRestricted
  deriving DecidableEq

inductive SmbDialect where
  | smb2
  | smb3
  deriving DecidableEq

inductive ProfileOptions where
  | ssh (jumpProfiles : List ProfileId) (agentForwarding : Bool)
  | sftp (jumpProfiles : List ProfileId)
  | ftp (dataConnection : DataConnectionMode)
  | ftpsExplicit (dataConnection : DataConnectionMode) (requireProtectedDataChannel : Bool)
  | smb (share : Option String) (minimumDialect : SmbDialect) (requireSigning : Bool)
      (requireEncryption : Bool)
  deriving DecidableEq

def ProfileOptions.protocol : ProfileOptions → RemoteProtocol
  | .ssh _ _ => .ssh
  | .sftp _ => .sftp
  | .ftp _ => .ftp
  | .ftpsExplicit _ _ => .ftpsExplicit
  | .smb _ _ _ _ => .smb

def ProfileOptions.jumpProfiles : ProfileOptions → List ProfileId
  | .ssh jumpProfiles _ => jumpProfiles
  | .sftp jumpProfiles => jumpProfiles
  | _ => []

structure RemoteConnectionProfile where
  id : ProfileId
  label : String
  protocol : RemoteProtocol
  endpoint : RemoteEndpoint
  username : Option String
  domain : Option String
  authentication : Authentication
  trust : TrustPolicy
  options : ProfileOptions
  deriving DecidableEq

inductive ProfileValidationError where
  | invalidHost
  | invalidPort
  | invalidLabel
  | invalidUsername
  | invalidDomain
  | protocolOptionsMismatch
  | trustPolicyMismatch
  | invalidPinnedTlsCertificate
  | invalidTimestamp
  | invalidPageLimit
  | invalidPage
  | invalidRevision
  | invalidResult
  | authenticationMismatch
  deriving DecidableEq

def beginCertificate : List Char := "-----BEGIN CERTIFICATE-----".toList

def endCertificate : List Char := "-----END CERTIFICATE-----".toList

def certificateCharacter (c : Char) : Bool :=
  c.isAlphanum || c = '+' || c = '/' || c = '=' || c = '-' || c = ' ' || c = '\r' || c = '\n'

def validatePinnedTlsCertificate (value : String) : Except ProfileValidationError Unit :=
  let text := value.toList
  refuseIf (maxPinnedTlsCertificateBytes < value.utf8ByteSize ∨
    ¬ beginCertificate.isPrefixOf text ∨ ¬ endCertificate.isSuffixOf (Text.trimEnd text) ∨
    Text.matchCount beginCertificate text ≠ 1 ∨ Text.matchCount endCertificate text ≠ 1 ∨
    text.any fun c => ! certificateCharacter c) .invalidPinnedTlsCertificate

def validateDisplayField (value : String) (maxBytes : Nat) (error : ProfileValidationError) :
    Except ProfileValidationError Unit :=
  refuseIf (value.isEmpty ∨ maxBytes < value.utf8ByteSize ∨ value.toList.any Text.isControl) error

def trustMatches : RemoteProtocol → TrustPolicy → Bool
  | .ssh, .sshKnownHosts _ => true
  | .sftp, .sshKnownHosts _ => true
  | .ftp, .plaintextAcknowledged => true
  | .ftpsExplicit, .systemTls => true
  | .ftpsExplicit, .pinnedTlsCertificate _ => true
  | .smb, .smbNegotiated => true
  | _, _ => false

def authenticationMatches : RemoteProtocol → Authentication → Bool
  | .ssh, .sshAgent | .sftp, .sshAgent => true
  | .ssh, .sshKey _ _ | .sftp, .sshKey _ _ => true
  | .ssh, .password _ | .sftp, .password _ => true
  | .ftp, .anonymous | .ftpsExplicit, .anonymous => true
  | .ftp, .password _ | .ftpsExplicit, .password _ => true
  | .smb, .password _ => true
  | .smb, .kerberos => true
  | _, _ => false

def TrustPolicy.pinned? : TrustPolicy → Option String
  | .pinnedTlsCertificate certificatePem => some certificatePem
  | _ => none

def RemoteConnectionProfile.validate (self : RemoteConnectionProfile) :
    Except ProfileValidationError Unit := do
  validateDisplayField self.label 128 .invalidLabel
  self.username.forM fun username => validateDisplayField username 256 .invalidUsername
  self.domain.forM fun domain => validateDisplayField domain 255 .invalidDomain
  refuseIf (self.protocol ≠ self.options.protocol) .protocolOptionsMismatch
  refuseIf (¬ trustMatches self.protocol self.trust) .trustPolicyMismatch
  self.trust.pinned?.forM validatePinnedTlsCertificate
  refuseIf (¬ authenticationMatches self.protocol self.authentication) .authenticationMismatch

def maxRemoteProfilePageSize : Nat := 16

structure StoredRemoteProfile where
  profile : RemoteConnectionProfile
  revision : Nat
  createdAtUnixMs : Int
  updatedAtUnixMs : Int
  deriving DecidableEq

def StoredRemoteProfile.validate (self : StoredRemoteProfile) :
    Except ProfileValidationError Unit := do
  self.profile.validate
  refuseIf (self.createdAtUnixMs < 0 ∨ self.updatedAtUnixMs < self.createdAtUnixMs)
    .invalidTimestamp

theorem StoredRemoteProfile.validate_ok {stored : StoredRemoteProfile} :
    stored.validate = .ok () ↔ stored.profile.validate = .ok () ∧
      0 ≤ stored.createdAtUnixMs ∧ stored.createdAtUnixMs ≤ stored.updatedAtUnixMs := by
  unfold validate
  rw [check_ok, refuseIf_ok, not_or, not_lt, not_lt]

structure RemoteProfilePageQuery where
  after : Option ProfileId
  limit : Nat
  deriving DecidableEq

def RemoteProfilePageQuery.validate (self : RemoteProfilePageQuery) :
    Except ProfileValidationError Unit :=
  refuseIf (self.limit = 0 ∨ maxRemoteProfilePageSize < self.limit) .invalidPageLimit

structure RemoteProfilePage where
  profiles : List StoredRemoteProfile
  nextAfter : Option ProfileId
  deriving DecidableEq

def anyOutOfOrder : List StoredRemoteProfile → Bool
  | a :: b :: rest => decide (b.profile.id ≤ a.profile.id) || anyOutOfOrder (b :: rest)
  | _ => false

def RemoteProfilePage.validate (self : RemoteProfilePage) (query : RemoteProfilePageQuery) :
    Except ProfileValidationError Unit := do
  query.validate
  refuseIf (query.limit < self.profiles.length ∨ anyOutOfOrder self.profiles ∨
    (∃ stored ∈ self.profiles, stored.validate ≠ .ok ()) ∨
    (∃ after ∈ query.after, ∃ stored ∈ self.profiles.head?, stored.profile.id ≤ after) ∨
    ∃ next ∈ self.nextAfter, ∀ stored ∈ self.profiles.getLast?, stored.profile.id ≠ next)
    .invalidPage

inductive RemoteProfileCommand where
  | list (query : RemoteProfilePageQuery)
  | upsert (profile : RemoteConnectionProfile) (expectedRevision : Option Nat)
  | delete (profileId : ProfileId) (expectedRevision : Nat)
  deriving DecidableEq

inductive RemoteProfileResult where
  | page (page : RemoteProfilePage)
  | stored (stored : StoredRemoteProfile)
  | deleted (profileId : ProfileId)
  deriving DecidableEq

def RemoteProfileCommand.validate : RemoteProfileCommand → Except ProfileValidationError Unit
  | .list query => query.validate
  | .upsert profile expectedRevision => do
    profile.validate
    refuseIf (expectedRevision = some u64Max) .invalidRevision
  | .delete _ _ => .ok ()

def nextRevision (expectedRevision : Option Nat) : Nat :=
  match expectedRevision with
  | none => 0
  | some revision => revision + 1

def RemoteProfileResult.validateFor (self : RemoteProfileResult) (command : RemoteProfileCommand) :
    Except ProfileValidationError Unit :=
  match self, command with
  | .page result, .list query => result.validate query
  | .stored result, .upsert profile expectedRevision => do
    result.validate
    refuseIf (result.profile.id ≠ profile.id ∨ result.revision ≠ nextRevision expectedRevision)
      .invalidResult
  | .deleted profileId, .delete requested _ =>
    if profileId = requested then .ok () else .error .invalidResult
  | _, _ => .error .invalidResult

end Remote
end LocalDesk
