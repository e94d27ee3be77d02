/-
What `Completed` says about a received file.

A completion is verified against the checksum it carries itself.  The size and
the checksum the offer announced are stored, and never looked at again, and a
file that cannot be opened has the empty hash, which is also the checksum of a
completion that carries none.  A completed record therefore vouches for the
offered file exactly where the packets agree: the last offer under the id, the
chunks that were written where it said, and the completion.
-/

import Mathlib.Data.List.Induction
import Mathlib.Data.Option.Basic
import Shr.Transfer.Identity

namespace Shr

section Completion

variable {vendor : Vendor} {host : Host}

end Completion

/-! ### What the packets of a run have said and written -/

section History

variable (vendor : Vendor) (host : Host)

def overwritten (previous : Option Bytes) (piece : UInt64 × Bytes) : Option Bytes :=
  some (chunkedContent previous piece.1 piece.2)

def StoresRecord (id : Bytes) (state : NodeState) (event : NodeEvent) : Prop :=
  ∃ record, Writes vendor host state id event (.store record)

/-- What a completion says fits what was offered and what has been written: it has a
checksum where there is nothing, and where its checksum is the digest of what there is,
the offer gave that checksum and the size. -/
structure Agrees (offer : FileOffer) (written : Option Bytes) (complete : FileComplete) :
    Prop where
  begun : complete.checksum = [] → written ≠ none
  checksum : ∀ content, written = some content →
    complete.checksum = sha256Bytes vendor content → complete.checksum = cstr offer.checksum
  size : ∀ content, written = some content →
    complete.checksum = sha256Bytes vendor content → content.length = offer.fileSize.toNat

end History

section HistoryFacts

variable {vendor : Vendor} {host : Host} {files : Bytes → Option Bytes}

theorem HasIdentity.unstored {state : NodeState} {event : NodeEvent} {id : Bytes}
    {original : TransferRecord} (has : HasIdentity id original state)
    (unstored : ¬StoresRecord vendor host id state event) :
    HasIdentity id original (state.step vendor host event) := by
  obtain ⟨record, found, same⟩ := has
  rcases @step_record vendor host state event id with
    ⟨write, writes, written⟩ | ⟨_unwritten, unchanged⟩
  · rw [found] at written
    cases write with
    | store stored => exact absurd ⟨stored, writes⟩ unstored
    | progress transferred progress now =>
        exact ⟨_, written, same.progressed transferred progress now⟩
  · exact ⟨record, unchanged.trans found, same⟩

end HistoryFacts

namespace Reference

end Reference

end Shr
