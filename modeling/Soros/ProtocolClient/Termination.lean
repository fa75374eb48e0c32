import Soros.ProtocolClient.Framing

set_option autoImplicit false

/-! # When `receive_message` returns

The loop of `receive_message` ends with a read that brings a newline, or with a failed read. The
end of the stream is neither: `read` returns no bytes, again and again, and the loop never ends
(`fill_quiet`), not even for a message that is in the buffer already. -/

namespace Soros

namespace ProtocolClient

variable (serde : Serde Bytes)

/-- The zeros that fill the buffer up are no newlines. -/
theorem newline_mem_buffer (bytes : Bytes) :
    (bytes ++ List.replicate (32 - bytes.length) 0).contains newline = true ↔ newline ∈ bytes := by
  have hzero : newline ∉ List.replicate (32 - bytes.length) (0 : UInt8) := fun hno =>
    absurd (List.eq_of_mem_replicate hno) (by decide)
  simp [hzero]

end ProtocolClient

end Soros
