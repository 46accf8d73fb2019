import Mathlib

/-!
# Exceptions and outcomes of calls
-/

namespace SocketWrapper

/-- `SocketException::Type`. -/
inductive SocketExceptionType
  | SOCKET_INVALID_CONDITION
  | SOCKET_OK
  | SOCKET_SOCKET
  | SOCKET_BIND
  | SOCKET_LISTEN
  | SOCKET_ACCEPT
  | SOCKET_WRITE
  | SOCKET_WRITE_PARTIAL
  | SOCKET_READ
  | SOCKET_CLOSE
  | SOCKET_CONNECT
  | SOCKET_PAIR
  | SOCKET_TERMINATION_REQUEST
  | SOCKET_CLOSED
  | SOCKET_READ_TIMEOUT
  | SOCKET_POLL
  | SOCKET_RECEIVE_BUFFER_TOO_SMALL
  | SOCKET_JOIN_MULTICAST
  | SOCKET_SET_OPTION
  deriving DecidableEq, Repr

structure SocketException where
  exceptionType : SocketExceptionType
  /-- The value of `errno`, or -1 where the constructor's default is used. -/
  cError : Int
  processedBytes : Int
  deriving DecidableEq, Repr

/-- `SocketException(t, c_error)`, with `processed_bytes` left at its default. -/
def SocketException.withErrno (t : SocketExceptionType) (cError : Nat) : SocketException :=
  ⟨t, cError, -1⟩

/-- `SocketException(t)`, with both defaults. -/
def SocketException.ofType (t : SocketExceptionType) : SocketException :=
  ⟨t, -1, -1⟩

/-- The exceptions that the library throws. -/
inductive Exception
  | socket (ex : SocketException)
  | logicError (what : String)
  | outOfRange (what : String)
  | runtimeError (what : String)
  | systemError
  deriving DecidableEq, Repr

/-- How far a call got: it returned, it threw, or it is still waiting for the kernel. -/
inductive Outcome (α : Type)
  | returned (a : α)
  | threw (e : Exception)
  | waiting
  deriving DecidableEq, Repr

def Outcome.isReturned {α : Type} : Outcome α → Bool
  | .returned _ => true
  | _ => false

/-- The call threw a `SocketException` of type `t`. -/
def Outcome.ThrewType {α : Type} (o : Outcome α) (t : SocketExceptionType) : Prop :=
  ∃ ex : SocketException, o = .threw (.socket ex) ∧ ex.exceptionType = t

/-- Throw a `SocketException` made from an `errno` value. -/
abbrev Outcome.socketError {α : Type} (t : SocketExceptionType) (cError : Nat) : Outcome α :=
  .threw (.socket (.withErrno t cError))

/-- Go on with `k` if the first part returned; an exception or a wait ends the whole. -/
def Outcome.andThen {σ α β : Type} (r : Outcome α × σ) (k : α → σ → Outcome β × σ) : Outcome β × σ :=
  match r with
  | (.returned a, s) => k a s
  | (.threw e, s) => (.threw e, s)
  | (.waiting, s) => (.waiting, s)

section

variable {σ α β : Type} {s : σ} {k : α → σ → Outcome β × σ}

@[simp] theorem Outcome.andThen_returned {a : α} : andThen (.returned a, s) k = k a s := rfl

@[simp] theorem Outcome.andThen_threw {e : Exception} : andThen (.threw e, s) k = (.threw e, s) := rfl

@[simp] theorem Outcome.andThen_waiting : andThen (.waiting, s) k = (.waiting, s) := rfl

/-- If the whole returned, both parts did. -/
theorem Outcome.andThen_returned_inv {r : Outcome α × σ} {b : β} {s' : σ}
    (h : andThen r k = (.returned b, s')) :
    ∃ a s₁, r = (.returned a, s₁) ∧ k a s₁ = (.returned b, s') := by
  obtain ⟨o, s₁⟩ := r
  cases o with
  | returned a => exact ⟨a, s₁, rfl, h⟩
  | threw e => cases h
  | waiting => cases h

/-- Only exceptions with `P` leave the call. -/
def Outcome.Throws (P : Exception → Prop) (r : Outcome α × σ) : Prop := ∀ e, r.1 = .threw e → P e

theorem Outcome.Throws.andThen {P : Exception → Prop} {r : Outcome α × σ} (hr : Throws P r)
    (hk : ∀ a s, Throws P (k a s)) : Throws P (andThen r k) := by
  obtain ⟨o, s₁⟩ := r
  cases o with
  | returned a => exact hk a s₁
  | threw e =>
      intro e' he
      exact hr e' (by simpa using he)
  | waiting =>
      intro e he
      cases he

theorem Outcome.andThen_assoc {γ : Type} (r : Outcome α × σ) (g : β → σ → Outcome γ × σ) :
    andThen (andThen r k) g = andThen r (fun a s => andThen (k a s) g) := by
  obtain ⟨o, s⟩ := r
  cases o <;> rfl

end

section

variable {α : Type} {t t' : SocketExceptionType} {e : Exception} {a : α} {n : Nat}

@[simp] theorem SocketException.exceptionType_withErrno :
    (SocketException.withErrno t n).exceptionType = t := rfl

@[simp] theorem SocketException.exceptionType_ofType :
    (SocketException.ofType t).exceptionType = t := rfl

/-- An exception that carries an `errno` is not one made from the type alone. -/
@[simp] theorem SocketException.withErrno_ne_ofType :
    SocketException.withErrno t n ≠ SocketException.ofType t' := by
  intro h
  have herr : (n : Int) = -1 := congrArg SocketException.cError h
  omega

@[simp] theorem SocketException.ofType_inj :
    SocketException.ofType t = SocketException.ofType t' ↔ t = t' := by
  simp [SocketException.ofType]

@[simp] theorem Outcome.isReturned_returned : (Outcome.returned a).isReturned = true := rfl

@[simp] theorem Outcome.isReturned_threw : (Outcome.threw e : Outcome α).isReturned = false := rfl

@[simp] theorem Outcome.isReturned_waiting : (Outcome.waiting : Outcome α).isReturned = false := rfl

@[simp] theorem Outcome.not_threwType_returned : ¬ (Outcome.returned a).ThrewType t := by
  rintro ⟨ex, h, _⟩; cases h

@[simp] theorem Outcome.not_threwType_waiting : ¬ (Outcome.waiting : Outcome α).ThrewType t := by
  rintro ⟨ex, h, _⟩; cases h

@[simp] theorem Outcome.threwType_socket {ex : SocketException} :
    (Outcome.threw (.socket ex) : Outcome α).ThrewType t ↔ ex.exceptionType = t := by
  constructor
  · rintro ⟨ex', h, ht⟩; cases h; exact ht
  · exact fun ht => ⟨ex, rfl, ht⟩

@[simp] theorem Outcome.not_threwType_logicError {what : String} :
    ¬ (Outcome.threw (.logicError what) : Outcome α).ThrewType t := by
  rintro ⟨ex, h, _⟩; cases h

@[simp] theorem Outcome.not_threwType_runtimeError {what : String} :
    ¬ (Outcome.threw (.runtimeError what) : Outcome α).ThrewType t := by
  rintro ⟨ex, h, _⟩; cases h

@[simp] theorem Outcome.not_threwType_outOfRange {what : String} :
    ¬ (Outcome.threw (.outOfRange what) : Outcome α).ThrewType t := by
  rintro ⟨ex, h, _⟩; cases h

end

end SocketWrapper
