import LocalDesk.Data.Checks
import LocalDesk.Data.ShortReads
import LocalDesk.Remote.Core

/-!
# The parts of a remote file

A session reads a file in parts: a request names an offset and a number of bytes, and the answer
says whether the file ends with it.  What the sessions of the three protocols promise about one part
is the same, and reading on from the start by it gives the file.
-/

namespace LocalDesk
namespace Remote

open Checks OffsetPaging ShortReads

def RemoteReadRequest.isBounded (request : RemoteReadRequest) : Bool :=
  0 < request.maxBytes && request.maxBytes ≤ maxRemoteChunkBytes

/-- `identities_match`: what is expected is there. -/
def identitiesMatch (expected actual : Option ObjectIdentity) : Bool :=
  expected.all fun expected => actual.any fun actual =>
    expected.sizeBytes.all (actual.sizeBytes = some ·) &&
      expected.modifiedAtUnixMs.all (actual.modifiedAtUnixMs = some ·) &&
      expected.etag.all (actual.etag = some ·)

theorem identitiesMatch_self (identity : ObjectIdentity) :
    identitiesMatch (some identity) (some identity) = true := by
  obtain ⟨size, modified, etag⟩ := identity
  cases size <;> cases modified <;> cases etag <;> simp [identitiesMatch]

/-- What is read of a file from an offset: the bytes up to the end of the part or of the file.  The
end of the file is said there and nowhere else.  It may stay unsaid when the part is full and the
server does not state how long the file is. -/
structure ReadsRange (content : List UInt8) (offset maxBytes : Nat) (stated : Bool)
    (chunk : RemoteReadChunk) : Prop where
  offset_eq : chunk.offset = offset
  bytes_eq : chunk.bytes = pageAt content maxBytes offset
  end_eq : offset + chunk.bytes.length = min (offset + maxBytes) content.length
  eof_end : chunk.eof = true → offset + chunk.bytes.length = content.length
  end_eof : stated = true ∨ chunk.bytes.length < maxBytes →
    offset + chunk.bytes.length = content.length → chunk.eof = true

def RemoteReadChunk.next (chunk : RemoteReadChunk) : Option Nat :=
  if chunk.eof then none else some (chunk.offset + chunk.bytes.length)

/-- Every part of a file is read, and reading on from the start comes to an end and gives the
file. -/
structure ReadsFile {ε : Type} (content : List UInt8) (maxBytes : Nat) (stated : Bool)
    (read : Nat → Except ε RemoteReadChunk) : Prop where
  part : ∀ offset ≤ content.length, ∃ chunk, read offset = .ok chunk ∧
    ReadsRange content offset maxBytes stated chunk
  whole : ∃ chunks, (∀ fuel, content.length < fuel →
      follow read RemoteReadChunk.next fuel 0 = some (.ok chunks)) ∧
    chunks.flatMap RemoteReadChunk.bytes = content

section Range

variable {content : List UInt8} {offset maxBytes : Nat} {stated : Bool}

theorem ReadsRange.of_bytes {chunk : RemoteReadChunk} (hoffset : offset ≤ content.length)
    (hstart : chunk.offset = offset) (hbytes : chunk.bytes = pageAt content maxBytes offset)
    (hend : chunk.eof = true → offset + chunk.bytes.length = content.length)
    (heof : stated = true ∨ chunk.bytes.length < maxBytes →
      offset + chunk.bytes.length = content.length → chunk.eof = true) :
    ReadsRange content offset maxBytes stated chunk := by
  refine ⟨hstart, hbytes, ?_, hend, heof⟩
  rw [hbytes, length_pageAt]
  omega

theorem ReadsFile.of_ranges {ε : Type} {read : Nat → Except ε RemoteReadChunk} (hmax : 0 < maxBytes)
    (h : ∀ offset ≤ content.length, ∃ chunk, read offset = .ok chunk ∧
      ReadsRange content offset maxBytes stated chunk) :
    ReadsFile content maxBytes stated read := by
  have hrange : ∀ offset result, offset ≤ content.length → read offset = .ok result →
      ReadsRange content offset maxBytes stated result := by
    intro offset result hoffset hread
    obtain ⟨chunk, hchunk, hreads⟩ := h offset hoffset
    rw [hchunk, Except.ok.injEq] at hread
    exact hread ▸ hreads
  have hparts : Parts content maxBytes read RemoteReadChunk.bytes RemoteReadChunk.eof := by
    refine ⟨fun offset hoffset => ?_, fun offset result hoffset hread => ?_,
      fun offset result hoffset hread => ?_, fun offset result hoffset hread hnil => ?_⟩
    · obtain ⟨chunk, hchunk, -⟩ := h offset hoffset
      exact ⟨chunk, hchunk⟩
    · exact (hrange offset result hoffset hread).bytes_eq
    · exact (hrange offset result hoffset hread).eof_end
    · have hreads := hrange offset result hoffset hread
      have hend := hreads.end_eq
      rw [hnil, List.length_nil] at hend
      apply hreads.end_eof
      · exact .inr (by rw [hnil]; exact hmax)
      · rw [hnil, List.length_nil]
        omega
  refine ⟨h, follow_whole hparts fun offset result hoffset hread => ?_⟩
  rw [RemoteReadChunk.next, (hrange offset result hoffset hread).offset_eq]

end Range

end Remote
end LocalDesk
