import LocalDesk.Ftp.MlsdListing
import LocalDesk.Ftp.ReadChunk
import LocalDesk.Smb.Closing
import LocalDesk.Smb.ReadChunk
import LocalDesk.Ssh.ReadChunk

/-!
# The three protocols read alike

Over SFTP, SMB and FTP every part of a file is read as it is, and reading on from the start gives
the file.  Only SFTP may leave open whether a full part was the last one.
-/

namespace LocalDesk
namespace Remote

open OffsetPaging ShortReads

def RemoteReadRequest.from (request : RemoteReadRequest) (offset : Nat) : RemoteReadRequest :=
  { request with offset := offset }

/-- A session that is ready reads a file over SFTP: a server serves its content for every part. -/
structure SftpReads (content : List UInt8) (session : Ssh.SftpSession) (metadata : Ssh.MetaData)
    (files : Nat → Ssh.SftpFile) (request : RemoteReadRequest) : Prop where
  fits : content.length < 2 ^ 64
  ready : session.ready = true
  connected : session.connected = true
  bounded : request.isBounded = true
  expected : identitiesMatch request.expectedIdentity
    (some (Ssh.structuredIdentity metadata)) = true
  serves : ∀ offset ≤ content.length, Ssh.Serves content metadata (files offset)

/-- The same over SMB.  A length is a signed number there. -/
structure SmbReads (content : List UInt8) (session : Smb.SmbSession) (client : Smb.SessionClient)
    (stat : Smb.Stat) (calls : Nat → Smb.FileCalls) (request : RemoteReadRequest) : Prop where
  fits : content.length < 2 ^ 63
  ready : session.ready = true
  client_eq : session.client = some client
  bounded : request.isBounded = true
  expected : identitiesMatch request.expectedIdentity
    (some (Smb.nativeIdentity (Smb.entryFromStat request.path.value "" stat))) = true
  serves : ∀ offset ≤ content.length,
    Smb.Serves content stat client (request.from offset) (calls offset)

/-- The same over FTP, where the session admits the request at every offset. -/
structure FtpReads (content : List UInt8) (session : Ftp.FtpSession) (calls : Nat → Ftp.RangeCalls)
    (request : RemoteReadRequest) : Prop where
  fits : content.length < 2 ^ 63
  bounded : request.isBounded = true
  admitted : ∀ offset ≤ content.length,
    ∃ path, Ftp.FtpSession.admit session (request.from offset) = .ok path
  expected : ∀ identity ∈ request.expectedIdentity, ∀ size ∈ identity.sizeBytes,
    size = content.length
  serves : ∀ offset ≤ content.length, Ftp.Serves session.explicitFtps content (calls offset)

theorem isBounded_pos {request : RemoteReadRequest} (h : request.isBounded = true) :
    0 < request.maxBytes := by
  simp only [RemoteReadRequest.isBounded, Bool.and_eq_true, decide_eq_true_eq] at h
  exact h.1

theorem le_u64Max {n : Nat} (h : n < 2 ^ 64) : n ≤ u64Max := Nat.le_sub_one_of_lt h

theorem ReadsRange.agree {content : List UInt8} {offset maxBytes : Nat}
    {chunk other : RemoteReadChunk} (h : ReadsRange content offset maxBytes true chunk)
    (hother : ReadsRange content offset maxBytes true other) :
    chunk.bytes = other.bytes ∧ chunk.eof = other.eof := by
  have hbytes : chunk.bytes = other.bytes := h.bytes_eq.trans hother.bytes_eq.symm
  refine ⟨hbytes, ?_⟩
  rw [Bool.eq_iff_iff]
  constructor
  · intro heof
    have hend := h.eof_end heof
    rw [hbytes] at hend
    exact hother.end_eof (.inl rfl) hend
  · intro heof
    have hend := hother.eof_end heof
    rw [← hbytes] at hend
    exact h.end_eof (.inl rfl) hend

section Sessions

variable {content : List UInt8} {request : RemoteReadRequest}

theorem sftp_readsFile {session : Ssh.SftpSession} {metadata : Ssh.MetaData}
    {files : Nat → Ssh.SftpFile} (h : SftpReads content session metadata files request) :
    ReadsFile content request.maxBytes metadata.len.isSome fun offset =>
      Ssh.readChunkControlled session (files offset) (request.from offset) := by
  have hfits := le_u64Max h.fits
  apply ReadsFile.of_ranges (isBounded_pos h.bounded)
  intro offset hoffset
  exact ⟨_, Ssh.readChunkControlled_eq (h.serves offset hoffset) hfits h.ready h.connected h.bounded
    hoffset h.expected,
    @Ssh.readPart_range content metadata (files offset) (request.from offset)
      (h.serves offset hoffset) hfits hoffset⟩

theorem smb_readsFile {session : Smb.SmbSession} {client : Smb.SessionClient} {stat : Smb.Stat}
    {calls : Nat → Smb.FileCalls} (h : SmbReads content session client stat calls request) :
    ReadsFile content request.maxBytes true fun offset =>
      Smb.readChunkControlled session (calls offset) (request.from offset) := by
  apply ReadsFile.of_ranges (isBounded_pos h.bounded)
  intro offset hoffset
  exact ⟨_, Smb.readChunkControlled_eq (h.serves offset hoffset) h.fits h.ready h.client_eq
    h.bounded hoffset h.expected,
    @Smb.readPart_range content stat (request.from offset) hoffset⟩

theorem ftp_readsFile {session : Ftp.FtpSession} {calls : Nat → Ftp.RangeCalls}
    (h : FtpReads content session calls request) :
    ReadsFile content request.maxBytes true fun offset =>
      session.readChunk (calls offset) (request.from offset) := by
  have hfits : content.length ≤ u64Max := le_u64Max (Nat.lt_trans h.fits (by decide))
  apply ReadsFile.of_ranges (isBounded_pos h.bounded)
  intro offset hoffset
  obtain ⟨path, hadmit⟩ := h.admitted offset hoffset
  exact ⟨_, Ftp.sessionReadChunk_eq (h.serves offset hoffset) hfits hadmit (isBounded_pos h.bounded)
    hoffset h.expected,
    @Ftp.readPart_range content (request.from offset) hfits hoffset⟩

end Sessions

def oneByte : List UInt8 := [7]

def readByte : RemoteReadRequest := ⟨⟨"/a"⟩, 0, 1, none⟩

def byteFile (metadata : Ssh.MetaData) : Ssh.SftpFile where
  opened := .ok ()
  before := .ok metadata
  seek _ := .ok ()
  read position _ := if position = 0 then .ok (some oneByte) else .ok none
  after := .ok metadata
  close := .ok ()

def readySession : Ssh.SftpSession := ⟨true, true⟩

theorem byteFile_serves {metadata : Ssh.MetaData} (hlen : ∀ size ∈ metadata.len, size = 1) :
    Ssh.Serves oneByte metadata (byteFile metadata) := by
  refine ⟨rfl, rfl, fun _ => rfl, fun position asked hasked => ?_, rfl, rfl, hlen⟩
  by_cases hstart : position = 0
  · refine ⟨oneByte, ⟨?_, fun hnil => absurd hnil (by decide)⟩, .inl (if_pos hstart)⟩
    obtain ⟨more, rfl⟩ : ∃ more, asked = more + 1 := ⟨asked - 1, by omega⟩
    rw [hstart, List.drop_zero, oneByte, List.take_succ_cons, List.take_nil]
  · exact ⟨[], ⟨List.nil_prefix, fun _ => Nat.one_le_iff_ne_zero.mpr hstart⟩,
      .inr ⟨rfl, if_neg hstart⟩⟩

theorem byteFile_reads {metadata : Ssh.MetaData} (hlen : ∀ size ∈ metadata.len, size = 1) :
    SftpReads oneByte readySession metadata (fun _ => byteFile metadata) readByte :=
  ⟨by decide, rfl, rfl, by decide, rfl, fun _ _ => byteFile_serves hlen⟩

def byteStat : Smb.Stat := ⟨0o100644, 1, 0, 0⟩

def smbSession : Smb.SmbSession := ⟨true, some Smb.readyClient⟩

def byteCalls (offset : Nat) : Smb.FileCalls where
  opened := .ok 3
  answers := ⟨.ok byteStat, ⟨offset, 0⟩, if offset = 0 then [.ok oneByte] else [], [], .ok byteStat⟩
  closed := .ok ()

theorem byteCalls_reads :
    SmbReads oneByte smbSession Smb.readyClient byteStat byteCalls readByte := by
  have hopen : Smb.readyClient.openFile "/a" (.ok 3) = .ok 3 := by decide +kernel
  have hname : Smb.pathName "/a" = .ok "a" := by decide +kernel
  refine ⟨by decide, rfl, rfl, by decide, rfl, fun offset hoffset => ?_⟩
  refine ⟨⟨3, hopen⟩, ⟨"a", hname⟩, rfl, rfl, rfl, rfl, rfl, rfl, ?_, rfl, rfl,
    by decide, rfl⟩
  by_cases hstart : offset = 0
  · refine ⟨[oneByte], ?_, ?_⟩
    · exact if_pos hstart
    · rw [hstart]
      apply Filling.read (by decide) _ (by decide) (.full (by decide))
      exact ⟨by decide, fun hnil => absurd hnil (by decide)⟩
  · refine ⟨[], ?_, ?_⟩
    · exact if_neg hstart
    · apply Filling.ended
      show 1 ≤ offset + 0
      omega

def ftpSession : Ftp.FtpSession := ⟨true, Ftp.ftpCapabilities, false⟩

def quietEnd (length : Int) : Ftp.TransferEnd := ⟨.ok (), [], .ok (), some 226, .ok length⟩

def byteRange : Ftp.RangeCalls := ⟨quietEnd 1, fun _ _ => (quietEnd 1, oneByte), quietEnd 1⟩

theorem byteRange_reads : FtpReads oneByte ftpSession (fun _ => byteRange) readByte := by
  have hexpected : ∀ identity ∈ readByte.expectedIdentity, ∀ size ∈ identity.sizeBytes,
      size = oneByte.length := fun _ h => by cases h
  refine ⟨by decide, by decide, fun offset hoffset => ?_, hexpected, fun _ _ =>
    ⟨⟨rfl, rfl, rfl, rfl⟩, fun first last hle hlast => ?_, ⟨rfl, rfl, rfl, rfl⟩⟩⟩
  · have hcases : offset = 0 ∨ offset = 1 := by
      have hone : oneByte.length = 1 := rfl
      omega
    cases hcases with
    | inl hzero =>
      rw [hzero]
      exact ⟨⟨"/a", by decide +kernel, by decide +kernel⟩, by decide +kernel⟩
    | inr hone =>
      rw [hone]
      exact ⟨⟨"/a", by decide +kernel, by decide +kernel⟩, by decide +kernel⟩
  · have hlast : last = 0 := by
      have hone : oneByte.length = 1 := rfl
      omega
    have hfirst : first = 0 := by omega
    rw [hlast, hfirst]
    rfl

end Remote
end LocalDesk
