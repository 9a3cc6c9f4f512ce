import RdmaManager.Proto.ProtoServer
import RdmaManager.Node.Responses
/-!
# A server's request loop

`ProtoServer::run` with the handler of `RDMAServer`. The loop goes on
exactly as long as every message is answered, and no pass that answers
one leaves `m_handleLock` with one lock and one unlock
(`never_stopped_iff`). A request for the largest node id is one that is
not answered: `m_NodeIDsQPs` is resized to nothing, and the `out_of_range` of `at` is
none of the exceptions that `connectQueue` catches (`not_answered_maxNode`).
-/

namespace RdmaManager

namespace RDMAServer

open ProtoServer

variable {σ : Type} [RdmaApi σ]

/-- **No message stops the server**, exactly where none comes. What stops
the loop is a message that is not answered; a message that is answered
is answered once, with one lock and two unlocks of `m_handleLock`. -/
theorem never_stopped_iff (parse : List UInt8 → Option Request) (server : RDMAServer σ)
    (messages : List (List UInt8)) :
    (Unstopped parse handle messages (started server) ↔ messages = []) ∧
      (StillServing parse handle messages (started server) ↔
        Answered parse handle messages server) ∧
      (Answered parse handle messages server →
        (run parse handle messages (started server)).2.acquired = messages.length ∧
          (run parse handle messages (started server)).2.released = 2 * messages.length) := by
  refine ⟨unstopped_iff rfl, stillServing_iff rfl, fun hanswered => ?_⟩
  obtain ⟨-, hacquired, hreleased⟩ := run_of_answered (s := started server) rfl hanswered
  exact ⟨hacquired.trans (Nat.zero_add _), hreleased.trans (Nat.zero_add _)⟩

/-- `connectQueue` throws on the largest node id. -/
theorem connectQueue_maxNode {server : RDMAServer σ} {connReq : RDMAConnRequest}
    (hmax : connReq.nodeid.toNat + 1 = 2 ^ 64) (hsize : server.nodeIDsQPs.length < 2 ^ 64) :
    (connectQueue connReq server).1 = .error (.outOfRange "at") := by
  have hwp : Act.wp (connectQueue connReq) (fun _ _ => False)
      (fun e _ => e = .outOfRange "at") server := by
    unfold connectQueue RDMAClient.markNodeID
    simp only [Act.wp_bind, wp_onClient, Act.wp_get, Act.wp_ite, Act.wp_modify,
      Act.wp_elementAt false]
    refine ⟨fun _ => ⟨fun hlt => ?_, fun _ => trivial⟩, fun hlen => absurd hsize (by omega)⟩
    -- the vector is emptied
    rw [length_resize, hmax] at hlt
    exact absurd hlt (Nat.not_lt_zero _)
  rcases hres : connectQueue connReq server with ⟨e | connResp, server'⟩
  · have he := Act.wp_error hwp hres
    rw [he]
  · exact (Act.wp_ok hwp hres).elim

/-- **A request that stops the server**, whatever it has served before. -/
theorem not_answered_maxNode {parse : List UInt8 → Option Request} {server : RDMAServer σ}
    {connReq : RDMAConnRequest} {message : List UInt8} {messages : List (List UInt8)}
    (hparse : parse message = some (.rdmaConnRequest connReq))
    (hmax : connReq.nodeid.toNat + 1 = 2 ^ 64) (hsize : server.nodeIDsQPs.length < 2 ^ 64) :
    ¬ Answered parse handle (message :: messages) server := by
  rintro ⟨rcvMsg, respMsg, server', hparsed, hhandle, -⟩
  obtain rfl := Option.some.inj (hparse.symm.trans hparsed)
  have hthrow := connectQueue_maxNode hmax hsize
  rcases hres : connectQueue connReq server with ⟨e | connResp, server''⟩
  · have hhandle' : handle (.rdmaConnRequest connReq) server = (.error e, server'') :=
      Act.bind_of_error hres
    rw [hhandle'] at hhandle
    exact absurd (congrArg Prod.fst hhandle) (by simp)
  · rw [hres] at hthrow
    exact absurd hthrow (by simp)

/-! ## Messages that stop the server -/

/-- The message of no bytes is an `Any` of no type, and one of a single
byte with its highest bit set is no message. -/
def parseAny : List UInt8 → Option Request
  | [] => some .unknown
  | _ => none

/-- **The message of no bytes** is answered, and the lock is unlocked
twice. **A message that does not parse** ends the loop. -/
theorem stopped_by_message :
    (¬ Unstopped parseAny handle [[]] (started steadyServer) ∧
      (run parseAny handle [[]] (started steadyServer)).2.acquired = 1 ∧
      (run parseAny handle [[]] (started steadyServer)).2.released = 2) ∧
    ¬ Unstopped parseAny handle [[255]] (started steadyServer) ∧
      (run parseAny handle [[255]] (started steadyServer)).2.running = false ∧
      (run parseAny handle [[255]] (started steadyServer)).2.sent = [] := by
  refine ⟨⟨fun hgood => ?_, rfl, rfl⟩, fun hgood => ?_, rfl, rfl⟩
  · obtain ⟨-, -, honce⟩ := hgood [[]] (List.prefix_refl _)
    exact absurd honce (by decide)
  · obtain ⟨⟨-, hrunning, -⟩, -⟩ := hgood [[255]] (List.prefix_refl _)
    exact absurd hrunning (by decide)

end RDMAServer

end RdmaManager
