import Mathlib.Data.List.Flatten

/-! A client of several peers that keeps connections for another use. A request goes out on a connection that
was kept, once more on a new one if that fails, and on to the next peer if this fails as well; so it may be
carried out several times. What comes of an exchange is said by the attempts it makes, one after the other. -/

namespace MiniDynamo

/-- What such a client does, on some state: take a kept connection or make one, use it, and keep or close it.
Other errors than the one failure are passed on. -/
structure PooledClient (State Peer Socket Error Reply : Type) where
  poll : Peer → State → Option Socket × State
  dial : Peer → State → Option Socket × State
  roundTrip : Peer → Socket → State → Except Error Reply × State
  checkin : Peer → Socket → State → State
  close : Socket → State → State
  failed : Error

namespace PooledClient

variable {State Peer Socket Error Reply : Type} [DecidableEq Error]
variable (client : PooledClient State Peer Socket Error Reply)

/-- The end of a round trip, with the connection kept, closed, or left. -/
def settle (peer : Peer) (socket : Socket) : Except Error Reply × State → Except Error Reply × State
  | (.ok reply, after) => (.ok reply, client.checkin peer socket after)
  | (.error error, after) => (.error error, if error = client.failed then client.close socket after else after)

/-- What is done next, if the first failed. -/
def orElse (first : Except Error Reply × State) (next : State → Except Error Reply × State) :
    Except Error Reply × State :=
  match first with
  | (.ok reply, after) => (.ok reply, after)
  | (.error error, after) => if error = client.failed then next after else (.error error, after)

/-- A round trip on a new connection. -/
def tripFresh (peer : Peer) (state : State) : Except Error Reply × State :=
  match client.dial peer state with
  | (none, after) => (.error client.failed, after)
  | (some socket, after) => client.settle peer socket (client.roundTrip peer socket after)

def trip (peer : Peer) (state : State) : Except Error Reply × State :=
  match client.poll peer state with
  | (none, after) => client.tripFresh peer after
  | (some socket, after) =>
    client.orElse (client.settle peer socket (client.roundTrip peer socket after)) (client.tripFresh peer)

def exchange : List Peer → State → Except Error Reply × State
  | [], state => (.error client.failed, state)
  | peer :: rest, state => client.orElse (client.trip peer state) (exchange rest)

end PooledClient

/-- The attempts of an exchange at some peers in order: each but the last failed. -/
inductive Course {Peer Core Error Reply : Type} (Attempt : Peer → Core → Except Error Reply → Core → Prop)
    (failed : Error) : List Peer → Core → Except Error Reply → Core → Prop
  | exhausted (state : Core) : Course Attempt failed [] state (.error failed) state
  | again {peer : Peer} {peers : List Peer} {state middle after : Core} {result : Except Error Reply}
      (first : Attempt peer state (.error failed) middle) (rest : Course Attempt failed peers middle result after) :
      Course Attempt failed (peer :: peers) state result after
  | ended {peer : Peer} {state after : Core} {result : Except Error Reply} (last : Attempt peer state result after)
      (other : result ≠ .error failed) : Course Attempt failed [peer] state result after

namespace Course

variable {Peer Core Error Reply Other : Type} {Attempt : Peer → Core → Except Error Reply → Core → Prop}
variable {failed : Error} {peers : List Peer} {state middle after : Core} {result : Except Error Reply}

theorem single {peer : Peer} (attempt : Attempt peer state result after) :
    Course Attempt failed [peer] state result after := by
  by_cases again : result = .error failed
  · subst again
    exact .again attempt (.exhausted after)
  · exact .ended attempt again

theorem append {more : List Peer} (first : Course Attempt failed peers state (.error failed) middle)
    (second : Course Attempt failed more middle result after) :
    Course Attempt failed (peers ++ more) state result after := by
  generalize stopped : (Except.error failed : Except Error Reply) = outcome at first
  induction first with
  | exhausted state => exact second
  | again attempt rest ih => exact .again attempt (ih second stopped)
  | ended last other => exact absurd stopped.symm other

/-- Attempts that end alike, up to what their replies stand for, make courses that do. -/
theorem transfer {Attempt' : Peer → Core → Except Error Other → Core → Prop} (reads : Other → Reply)
    (stands : ∀ peer state result after, Attempt peer state result after →
      ∃ meant, Attempt' peer state meant after ∧ result = meant.map reads)
    (course : Course Attempt failed peers state result after) :
    ∃ meant, Course Attempt' failed peers state meant after ∧ result = meant.map reads := by
  induction course with
  | exhausted state => exact ⟨.error failed, .exhausted state, rfl⟩
  | again attempt rest ih =>
    obtain ⟨first, tried, same⟩ := stands _ _ _ _ attempt
    obtain ⟨meant, course, ends⟩ := ih
    cases first with
    | ok value => cases same
    | error error =>
      cases same
      exact ⟨meant, .again tried course, ends⟩
  | ended attempt other =>
    obtain ⟨meant, tried, same⟩ := stands _ _ _ _ attempt
    refine ⟨meant, .ended tried ?_, same⟩
    rintro rfl
    exact other same

/-- A course ends as its last attempt does, unless all of them failed. -/
theorem last (course : Course Attempt failed peers state result after) :
    result = .error failed ∨ ∃ peer before, Attempt peer before result after := by
  induction course with
  | exhausted state => exact .inl rfl
  | again attempt rest ih => exact ih
  | ended attempt other => exact .inr ⟨_, _, attempt⟩

end Course

namespace PooledClient

variable {State Peer Socket Error Reply Core : Type} [DecidableEq Error]
variable {client : PooledClient State Peer Socket Error Reply} {core : State → Core}
variable {Attempt : Peer → Core → Except Error Reply → Core → Prop}

/-- Only round trips touch the core of the state, and each is such an attempt. -/
structure Attempts (client : PooledClient State Peer Socket Error Reply) (core : State → Core)
    (Attempt : Peer → Core → Except Error Reply → Core → Prop) : Prop where
  poll : ∀ peer state, core (client.poll peer state).2 = core state
  dial : ∀ peer state, core (client.dial peer state).2 = core state
  checkin : ∀ peer socket state, core (client.checkin peer socket state) = core state
  close : ∀ socket state, core (client.close socket state) = core state
  roundTrip : ∀ peer socket state, Attempt peer (core state) (client.roundTrip peer socket state).1
    (core (client.roundTrip peer socket state).2)

/-- The result comes of a course of attempts at some of the peers. -/
def Follows (client : PooledClient State Peer Socket Error Reply) (core : State → Core)
    (Attempt : Peer → Core → Except Error Reply → Core → Prop) (among : List Peer) (state : State)
    (result : Except Error Reply × State) : Prop :=
  ∃ peers, peers.Sublist among ∧ Course Attempt client.failed peers (core state) result.1 (core result.2)

theorem Follows.orElse {first : Except Error Reply × State} {next : State → Except Error Reply × State}
    {among others : List Peer} {state : State} (before : client.Follows core Attempt among state first)
    (rest : ∀ after, client.Follows core Attempt others after (next after)) :
    client.Follows core Attempt (among ++ others) state (client.orElse first next) := by
  obtain ⟨peers, within, course⟩ := before
  obtain ⟨result, after⟩ := first
  cases result with
  | ok reply => exact ⟨peers, within.trans (List.sublist_append_left among others), course⟩
  | error error =>
    rw [PooledClient.orElse]
    split
    · rename_i again
      subst again
      obtain ⟨more, further, continued⟩ := rest after
      exact ⟨peers ++ more, within.append further, course.append continued⟩
    · exact ⟨peers, within.trans (List.sublist_append_left among others), course⟩

theorem Attempts.settle (attempts : client.Attempts core Attempt) (peer : Peer) (socket : Socket) (state : State) :
    client.Follows core Attempt [peer] state (client.settle peer socket (client.roundTrip peer socket state)) := by
  have attempt := attempts.roundTrip peer socket state
  generalize client.roundTrip peer socket state = done at attempt
  obtain ⟨result, after⟩ := done
  refine ⟨[peer], List.Sublist.refl _, Course.single ?_⟩
  cases result with
  | ok reply =>
    rw [PooledClient.settle, attempts.checkin]
    exact attempt
  | error error =>
    rw [PooledClient.settle]
    split
    · rw [attempts.close]
      exact attempt
    · exact attempt

theorem Attempts.tripFresh (attempts : client.Attempts core Attempt) (peer : Peer) (state : State) :
    client.Follows core Attempt [peer] state (client.tripFresh peer state) := by
  have same := attempts.dial peer state
  unfold PooledClient.tripFresh
  generalize client.dial peer state = dialled at same
  obtain ⟨socket, after⟩ := dialled
  cases socket with
  | none => exact ⟨[], List.nil_sublist _, same ▸ .exhausted (core after)⟩
  | some socket =>
    obtain ⟨peers, within, course⟩ := attempts.settle peer socket after
    exact ⟨peers, within, same ▸ course⟩

theorem Attempts.trip (attempts : client.Attempts core Attempt) (peer : Peer) (state : State) :
    client.Follows core Attempt [peer, peer] state (client.trip peer state) := by
  have same := attempts.poll peer state
  unfold PooledClient.trip
  generalize client.poll peer state = polled at same
  obtain ⟨socket, after⟩ := polled
  cases socket with
  | none =>
    obtain ⟨peers, within, course⟩ := attempts.tripFresh peer after
    exact ⟨peers, within.trans (List.sublist_append_left [peer] [peer]), same ▸ course⟩
  | some socket =>
    obtain ⟨peers, within, course⟩ := (attempts.settle peer socket after).orElse (attempts.tripFresh peer)
    exact ⟨peers, within, same ▸ course⟩

/-- An exchange is a course of attempts at the peers it was given, in their order and at most two at each. -/
theorem Attempts.exchange (attempts : client.Attempts core Attempt) (peers : List Peer) (state : State) :
    client.Follows core Attempt (peers.flatMap (fun peer => [peer, peer])) state (client.exchange peers state) := by
  induction peers generalizing state with
  | nil => exact ⟨[], List.nil_sublist _, .exhausted (core state)⟩
  | cons peer rest ih => exact (attempts.trip peer state).orElse ih

end PooledClient

end MiniDynamo
