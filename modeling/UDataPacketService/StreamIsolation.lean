import UDataPacketService.ClientView

/-! One stream as a machine over its public calls. The part of a stream that one
context sees is all that its own calls read, and the calls that other contexts make
for themselves do not reach that part. -/
namespace UDataPacketService
open Std (ExtTreeMap)

inductive StreamOperation where
  | setNextPacket (packet : Packet)
  | subscribe (contextAddress : ContextAddress) (enqueueLatestPacket : Bool)
  | getNextPacket (contextAddress : ContextAddress)
  | unsubscribe (contextAddress : ContextAddress)
  | unsubscribeAll
  deriving DecidableEq

def StreamOperation.caller : StreamOperation → Option ContextAddress
  | .subscribe c _ | .getNextPacket c | .unsubscribe c => some c
  | .setNextPacket _ | .unsubscribeAll => none

inductive StreamReply where
  | done
  | thrown (what : String)
  | added (wasAdded : Bool)
  | packet (result : Option Packet)
  | unsubscribed (result : UnsubscribeResponse)
  deriving DecidableEq

def streamMachine : Machine Stream StreamOperation StreamReply where
  step stream
    | .setNextPacket packet =>
        match stream.setNextPacket packet with
        | .ok next => (next, .done)
        | .error what => (stream, .thrown what)
    | .subscribe c enqueueLatestPacket =>
        ((stream.subscribe c enqueueLatestPacket).2,
          .added (stream.subscribe c enqueueLatestPacket).1)
    | .getNextPacket c => ((stream.getNextPacket c).2, .packet (stream.getNextPacket c).1)
    | .unsubscribe c =>
        ((stream.unsubscribe c).2,
          match (stream.unsubscribe c).1 with
          | .ok response => .unsubscribed response
          | .error what => .thrown what)
    | .unsubscribeAll => (stream.unsubscribeAll, .done)

theorem view_streamMachine_of_other {c d : ContextAddress} (stream : Stream)
    {operation : StreamOperation} (made : operation.caller = some d) (other : d ≠ c) :
    (streamMachine.step stream operation).1.view c = stream.view c := by
  cases operation with
  | setNextPacket | unsubscribeAll => cases made
  | subscribe e enqueueLatestPacket =>
      obtain rfl := Option.some.inj made
      exact stream.view_subscribe_of_ne c other enqueueLatestPacket
  | getNextPacket e =>
      obtain rfl := Option.some.inj made
      exact stream.view_getNextPacket_of_ne c other
  | unsubscribe e =>
      obtain rfl := Option.some.inj made
      exact stream.view_unsubscribe_of_ne c other

/-- Two streams that a context sees alike answer its own calls and the calls made for
nobody alike, and it sees them alike afterwards. -/
theorem streamMachine_of_view {c : ContextAddress} {first second : Stream}
    (same : first.view c = second.view c) {operation : StreamOperation}
    (kept : operation.caller = none ∨ operation.caller = some c) :
    (streamMachine.step first operation).2 = (streamMachine.step second operation).2 ∧
      (streamMachine.step first operation).1.view c =
        (streamMachine.step second operation).1.view c := by
  have own : ∀ {d}, (some d = none ∨ some d = some c) → d = c :=
    fun h => Option.some.inj (h.resolve_left nofun)
  cases operation with
  | setNextPacket packet =>
      have name : first.mStreamIdentifier = second.mStreamIdentifier :=
        congrArg StreamView.mStreamIdentifier same
      simp only [streamMachine]
      cases hf : first.setNextPacket packet with
      | ok next =>
          obtain ⟨seen, named⟩ := first.view_setNextPacket c hf
          have taken : ∃ other, second.setNextPacket packet = .ok other := by
            simp only [Stream.setNextPacket, ← name, named, ne_eq, not_true_eq_false, if_false,
              Except.ok.injEq, exists_eq']
          obtain ⟨other, hs⟩ := taken
          rw [hs]
          exact ⟨rfl, by rw [seen, (second.view_setNextPacket c hs).1, same]⟩
      | error what =>
          have thrown : second.setNextPacket packet = .error what := by
            simp only [Stream.setNextPacket] at hf ⊢
            rw [← name]
            split_ifs at hf ⊢
            exact hf
          rw [thrown]
          exact ⟨rfl, same⟩
  | subscribe d enqueueLatestPacket =>
      obtain rfl := own kept
      simp only [streamMachine, Stream.subscribe_fst, Stream.view_subscribe, same, and_self]
  | getNextPacket d =>
      obtain rfl := own kept
      simp only [streamMachine, Stream.getNextPacket_fst, Stream.view_getNextPacket, same, and_self]
  | unsubscribe d =>
      obtain rfl := own kept
      simp only [streamMachine, Stream.unsubscribe_fst, Stream.view_unsubscribe, same, and_self]
  | unsubscribeAll =>
      simp only [streamMachine, Stream.view_unsubscribeAll, same, and_self]

/-- In every run of a stream, each call of a context is answered as in the run without
the calls that other contexts make for themselves, whatever their queues hold or lose. -/
theorem stream_subscribers_isolated (stream : Stream) (operations : List StreamOperation)
    (c : ContextAddress) :
    streamMachine.outputsOf (fun operation => operation.caller = some c) stream operations =
      streamMachine.outputsOf (fun operation => operation.caller = some c) stream
        (operations.filter
          (fun operation => operation.caller = none ∨ operation.caller = some c)) := by
  refine (streamMachine.outputsOf_restrict _ _ (fun _ own => .inr own)
    (fun first second => first.view c = second.view c) ?_ ?_ rfl operations).1
  · intro first second operation same removed
    obtain ⟨d, made⟩ := Option.ne_none_iff_exists'.mp (fun nobody => removed (.inl nobody))
    have other : d ≠ c := fun own => removed (.inr (own ▸ made))
    exact (view_streamMachine_of_other first made other).trans same
  · exact fun first second operation same kept => streamMachine_of_view same kept

end UDataPacketService
