import SocketWrapper.Base.Write

/-!
# `Stream::write`, from the call to its end

The kernel is a list of results, one for each `::write` of the call.
-/

namespace SocketWrapper

/-- A `::write`: the bytes it was given, and those that the kernel has taken. -/
structure WriteTry where
  offered : List Byte
  taken : List Byte
  deriving DecidableEq, Repr

/-- What becomes of a call of `Stream::write`, and its `::write`s. -/
structure WriteResult where
  outcome : Outcome Unit
  tries : List WriteTry
  deriving DecidableEq, Repr

namespace WriteResult

/-- A `::write` before those of the result. -/
def after (t : WriteTry) (r : WriteResult) : WriteResult := ⟨r.outcome, t :: r.tries⟩

/-- The bytes that the kernel has taken. -/
def taken (r : WriteResult) : List Byte := (r.tries.map WriteTry.taken).flatten

/-- If the call throws, `processed_bytes` is the number of bytes that the kernel has taken. -/
def ReportsProgress (r : WriteResult) : Prop :=
  ∀ e, r.outcome = .threw e → ∃ ex, e = .socket ex ∧ ex.processedBytes = (r.taken.length : Nat)

end WriteResult

namespace Stream

/-- The loop of `Stream::write`. Below zero `attempts` does not get to zero. `errno` is what an earlier
call of anything has left there. -/
def writeLoop (buffer : List Byte) (errno : Nat) : List WriteAnswer → Int → Nat → WriteResult
  | answers, attempts, totalWrittenBytes =>
      if attempts = 0 then
        if totalWrittenBytes ≠ buffer.length then
          ⟨.threw (.socket ⟨.SOCKET_WRITE_PARTIAL, errno, totalWrittenBytes⟩), []⟩
        else ⟨.returned (), []⟩
      else match answers with
        | [] => ⟨.waiting, []⟩
        | .fails errno :: _ =>
            ⟨.socketError .SOCKET_WRITE errno, [⟨buffer.drop totalWrittenBytes, []⟩]⟩
        | .accepts count :: rest =>
            -- the kernel has room for `count` bytes, which may be more than are left
            let taken := (buffer.drop totalWrittenBytes).take count
            .after ⟨buffer.drop totalWrittenBytes, taken⟩ <|
              if totalWrittenBytes + taken.length = buffer.length then ⟨.returned (), []⟩
              else writeLoop buffer errno rest (attempts - 1) (totalWrittenBytes + taken.length)

/-- `Stream::write(buffer, size, attempts)`, `size` being the length of `buffer`. -/
def write (buffer : List Byte) (attempts : Int) (errno : Nat) (answers : List WriteAnswer) : WriteResult :=
  writeLoop buffer errno answers attempts 0

/-! ## Non-blocking descriptors -/

/-- What `::write` does on a non-blocking descriptor: the kernel has room for some bytes, or the call
would block. -/
def tryOf : Option Nat → WriteAnswer
  | some count => .accepts count
  | none => .fails 11 -- `EAGAIN`

/-- The bytes for which there is room in the tries. -/
def room (tries : List (Option Nat)) : Nat := (tries.map (·.getD 0)).sum

/-- If there is room for the buffer in the first `attempts` tries the call returns, otherwise it throws
`SOCKET_WRITE_PARTIAL` with the number of bytes for which there is. -/
def CoversFull (buffer : List Byte) (attempts errno : Nat) (tries : List (Option Nat)) : Prop :=
  let r := Stream.write buffer attempts errno (tries.map tryOf)
  if buffer.length ≤ room (tries.take attempts) then r.outcome = .returned ()
  else ∃ ex, r.outcome = .threw (.socket ex) ∧ ex.exceptionType = .SOCKET_WRITE_PARTIAL ∧
    ex.processedBytes = (room (tries.take attempts) : Nat)

/-- No try that the call comes to would block: the tries before it have taken the whole buffer, and there
are some. -/
def NeverBlocks (buffer : List Byte) (attempts : Nat) (tries : List (Option Nat)) : Prop :=
  ∀ k < attempts, tries[k]? = some none → 0 < k ∧ buffer.length ≤ room (tries.take k)

instance (buffer : List Byte) (attempts : Nat) (tries : List (Option Nat)) :
    Decidable (NeverBlocks buffer attempts tries) :=
  inferInstanceAs (Decidable (∀ k < attempts, _ → _))

end Stream

end SocketWrapper
