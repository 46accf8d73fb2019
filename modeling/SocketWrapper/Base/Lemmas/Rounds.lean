import SocketWrapper.Base.Stream

/-!
# The rounds of `Stream::read`

What one round can do, said once; what holds of a whole call is proved by induction on its rounds.
-/

namespace SocketWrapper

/-! ## `::read` -/

namespace Socket

variable {s : Socket} {requested available : Nat}

theorem read_append (s : Socket) (requested available : Nat) :
    (s.read requested available).1 ++ (s.read requested available).2.unread = s.unread :=
  List.take_append_drop _ _

theorem length_read_le (s : Socket) (requested available : Nat) :
    (s.read requested available).1.length ≤ requested := by
  simp only [read, List.length_take]
  omega

theorem read_eq_nil_iff : (s.read requested available).1 = [] ↔ requested = 0 ∨ s.unread = [] := by
  simp [read, List.take_eq_nil_iff]

theorem read_of_nil (h : (s.read requested available).1 = []) :
    (s.read requested available).2 = ⟨s.unread, s.calls ++ [⟨requested, []⟩]⟩ := by
  have hkept := s.read_append requested available
  rw [h, List.nil_append] at hkept
  rw [← hkept, ← h]
  rfl

end Socket

/-! ## The rounds -/

/-- The poll ends a call that needs more bytes, with an exception made from `t` and `errno`. -/
inductive Answer.Fails (stopEvent : Nat) (timeoutMs : Int) : Answer → SocketExceptionType → Nat → Prop
  | poll {errno : Nat} : Fails stopEvent timeoutMs (.pollFails errno) .SOCKET_POLL errno
  | read {errno : Nat} : Fails stopEvent timeoutMs (.readFails errno) .SOCKET_READ errno
  | stopped (hstop : 0 < stopEvent) : Fails stopEvent timeoutMs .quiet .SOCKET_TERMINATION_REQUEST 0
  | expired (hstop : stopEvent = 0) (htime : 0 ≤ timeoutMs) :
      Fails stopEvent timeoutMs .quiet .SOCKET_READ_TIMEOUT 0

namespace Stream

variable {most least stopEvent available : Nat} {timeoutMs : Int} {a : Answer} {answers : List Answer}
  {socket : Socket} {stored : List Byte}

/-- The loop on these answers, with what it makes of the socket and of the bytes read so far. -/
inductive Rounds (most least : Nat) (timeoutMs : Int) (stopEvent : Nat) :
    List Answer → Socket → List Byte → ReadResult → Prop
  | done {answers : List Answer} {socket : Socket} {stored : List Byte} (hdone : least ≤ stored.length) :
      Rounds most least timeoutMs stopEvent answers socket stored
        ⟨.returned stored.length, stored, ⟨socket, stopEvent, answers⟩⟩
  | waits {socket : Socket} {stored : List Byte} (hlt : stored.length < least) (hstop : stopEvent = 0) :
      Rounds most least timeoutMs stopEvent [] socket stored ⟨.waiting, stored, ⟨socket, stopEvent, []⟩⟩
  | stopped {socket : Socket} {stored : List Byte} (hlt : stored.length < least) (hstop : 0 < stopEvent) :
      Rounds most least timeoutMs stopEvent [] socket stored
        ⟨.socketError .SOCKET_TERMINATION_REQUEST 0, stored, ⟨socket, stopEvent, []⟩⟩
  | fails {a : Answer} {t : SocketExceptionType} {errno : Nat} {answers : List Answer} {socket : Socket}
      {stored : List Byte} (hlt : stored.length < least) (hfails : a.Fails stopEvent timeoutMs t errno) :
      Rounds most least timeoutMs stopEvent (a :: answers) socket stored
        ⟨.socketError t errno, stored, ⟨socket, stopEvent, answers⟩⟩
  | closed {available : Nat} {answers : List Answer} {socket : Socket} {stored : List Byte}
      (hlt : stored.length < least) (hnil : (socket.read (most - stored.length) available).1 = []) :
      Rounds most least timeoutMs stopEvent (.readable available :: answers) socket stored
        ⟨.socketError .SOCKET_CLOSED 0, stored,
          ⟨(socket.read (most - stored.length) available).2, stopEvent, answers⟩⟩
  | more {available : Nat} {answers : List Answer} {socket : Socket} {stored : List Byte} {r : ReadResult}
      (hlt : stored.length < least) (hne : (socket.read (most - stored.length) available).1 ≠ [])
      (hrest : Rounds most least timeoutMs stopEvent answers
        (socket.read (most - stored.length) available).2
        (stored ++ (socket.read (most - stored.length) available).1) r) :
      Rounds most least timeoutMs stopEvent (.readable available :: answers) socket stored r
  | again {answers : List Answer} {socket : Socket} {stored : List Byte} {r : ReadResult}
      (hlt : stored.length < least) (hstop : stopEvent = 0) (htime : timeoutMs < 0)
      (hrest : Rounds most least timeoutMs stopEvent answers socket stored r) :
      Rounds most least timeoutMs stopEvent (.quiet :: answers) socket stored r

theorem Rounds.eq_of_done {r : ReadResult} (h : Rounds most least timeoutMs stopEvent answers socket stored r)
    (hdone : least ≤ stored.length) : r = ⟨.returned stored.length, stored, ⟨socket, stopEvent, answers⟩⟩ := by
  cases h with
  | done => rfl
  | _ => exact absurd hdone (Nat.not_le.mpr ‹_›)

/-! ## The equations -/

theorem readLoop_done (h : least ≤ stored.length) :
    readLoop most least timeoutMs stopEvent answers socket stored =
      ⟨.returned stored.length, stored, ⟨socket, stopEvent, answers⟩⟩ := by
  rw [readLoop.eq_def]
  exact if_pos h

theorem readLoop_more (hlt : stored.length < least)
    (hne : (socket.read (most - stored.length) available).1 ≠ []) :
    readLoop most least timeoutMs stopEvent (.readable available :: answers) socket stored =
      readLoop most least timeoutMs stopEvent answers (socket.read (most - stored.length) available).2
        (stored ++ (socket.read (most - stored.length) available).1) := by
  rw [readLoop.eq_def]
  exact (if_neg (Nat.not_le.mpr hlt)).trans (if_neg hne)

theorem readLoop_again (hlt : stored.length < least) (hstop : stopEvent = 0) (htime : timeoutMs < 0) :
    readLoop most least timeoutMs stopEvent (.quiet :: answers) socket stored =
      readLoop most least timeoutMs stopEvent answers socket stored := by
  subst hstop
  rw [readLoop.eq_def]
  exact (if_neg (Nat.not_le.mpr hlt)).trans (if_pos htime)

/-! ## Every call -/

theorem rounds : Rounds most least timeoutMs stopEvent answers socket stored
    (readLoop most least timeoutMs stopEvent answers socket stored) := by
  induction answers generalizing socket stored with
  | nil =>
      by_cases hdone : least ≤ stored.length
      · rw [readLoop_done hdone]
        exact .done hdone
      · by_cases hstop : 0 < stopEvent
        · simpa [readLoop, hdone, hstop] using Rounds.stopped (Nat.not_le.mp hdone) hstop
        · simpa [readLoop, hdone, hstop] using
            Rounds.waits (Nat.not_le.mp hdone) (Nat.eq_zero_of_not_pos hstop)
  | cons a answers ih =>
      by_cases hdone : least ≤ stored.length
      · rw [readLoop_done hdone]
        exact .done hdone
      · have hlt : stored.length < least := Nat.not_le.mp hdone
        cases a with
        | pollFails errno => simpa [readLoop, hdone] using Rounds.fails hlt .poll
        | readFails errno => simpa [readLoop, hdone] using Rounds.fails hlt .read
        | readable available =>
            by_cases hnil : (socket.read (most - stored.length) available).1 = []
            · simpa [readLoop, hdone, hnil] using Rounds.closed hlt hnil
            · rw [readLoop_more hlt hnil]
              exact .more hlt hnil ih
        | quiet =>
            by_cases hstop : 0 < stopEvent
            · simpa [readLoop, hdone, hstop] using Rounds.fails hlt (.stopped hstop)
            · have hzero : stopEvent = 0 := Nat.eq_zero_of_not_pos hstop
              by_cases htime : timeoutMs < 0
              · rw [readLoop_again hlt hzero htime]
                exact .again hlt hzero htime ih
              · simpa [readLoop, hdone, hstop, htime] using
                  Rounds.fails hlt (.expired hzero (Int.not_lt.mp htime))

end Stream

end SocketWrapper
