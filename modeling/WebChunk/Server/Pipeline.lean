import WebChunk.Postgres.Ingest
import WebChunk.Proxy.Relay
import WebChunk.Semantics.FanIn

/-!
# From the players to the database

What `main` makes of the sessions of the proxy, `chunkChannel` and `chunkConsumer`: every packet
processor sends its chunks on one channel, and the consumer takes them out of it one by one and
writes them to a storage, which others use as well.
-/

namespace WebChunk.Server

open WebChunk.Postgres WebChunk.Proxy WebChunk.Semantics WebChunk.Storages

/-- What the consumer reads of a chunk of a session. -/
def consumedAs (r : Proxy.ProxiedChunk) : Storages.ProxiedChunk Proxy.Chunk where
  Server := r.Server
  Dimension := r.Dimension
  DimensionLowestY := r.DimensionLowestY
  Pos := (r.Pos.x, r.Pos.z)
  Data := r.Data

/-- The steps of the goroutine of `packetAcceptor`, which waits until its chunks are in the
channel. -/
def ofProcessor : SessionAction → Bool
  | .processorTake | .process | .processorPush | .flush _ => true
  | _ => false

section Pipeline

variable {ι Time L D Column : Type} [LinearOrder Time] (s : PostgresChunkStorage Time L D)
  (formats : Formats Column Proxy.Chunk) (sname pref : String) (clients : ι → ClientInfo)

/-- The sessions of the players, `chunkChannel` and `chunkConsumer`. -/
def chunkPipeline : FanIn ι Proxy.Session SessionAction (Instance Time L D)
    (IngestAction Time L D Proxy.Chunk) Proxy.ProxiedChunk where
  producer i := AcceptPlayer (clients i)
  sent session := session.acceptor.SaveChannel
  waits := ofProcessor
  dead session := session.panicked.isSome
  capacity := 12 * 12
  consumer := ingest s formats sname pref
  takes r := .consume (consumedAs r)
  apart
    | .consume _ => false
    | _ => true

/-- The players have just connected, and the database is as `init.sh` leaves it. -/
def pipelineStart (now : Time) :
    FanIn.State ι Proxy.Session (Instance Time L D) Proxy.ProxiedChunk :=
  FanIn.initial (fun _ => .initial) ⟨.empty, now⟩

end Pipeline

/-! ### What a session sends -/

/-- The processor takes back nothing that it has sent. -/
theorem handle_sent (cl : ClientInfo) (s : Acceptor) (p : Packet) :
    s.SaveChannel <+: (s.handle cl p).1.SaveChannel := by
  cases p <;> simp only [Acceptor.handle, Acceptor.levelChunkWithLight, Acceptor.blockEntityData,
    Acceptor.forgetLevelChunk, Acceptor.respawn, Acceptor.login] <;> (repeat' split) <;>
    first | exact List.prefix_rfl | exact List.prefix_append _ _

theorem foldl_flushNext_sent (cl : ClientInfo) (order : List CachePos) (s : Acceptor) :
    s.SaveChannel <+: (order.foldl (Acceptor.flushNext cl) s).SaveChannel := by
  induction order generalizing s with
  | nil => exact List.prefix_rfl
  | cons i rest inductionHypothesis =>
      refine List.IsPrefix.trans ?_ (inductionHypothesis (s.flushNext cl i))
      unfold Acceptor.flushNext
      split
      · exact List.prefix_append _ _
      · exact List.prefix_rfl

theorem session_sent {cl : ClientInfo} {s next : Proxy.Session} {action : SessionAction}
    (transition : (AcceptPlayer cl).step s action = some next) :
    s.acceptor.SaveChannel <+: next.acceptor.SaveChannel := by
  cases (relayStep_of_step transition).2 with
  | processes p processing lives => exact handle_sent cl s.acceptor p
  | flushes order receiving drained => exact foldl_flushNext_sent cl order s.acceptor
  | elsewhere _ _ reads writes same => rw [same.acceptor]
  | _ => exact List.prefix_rfl

/-! ### All runs -/

section Runs

variable {ι Time L D Column : Type} [DecidableEq ι] [Fintype ι] [LinearOrder Time]
  (s : PostgresChunkStorage Time L D) (formats : Formats Column Proxy.Chunk)
  (sname pref : String) (clients : ι → ClientInfo)

/-- Whatever the goroutines of the sessions, the consumer and other clients do: the chunks of a
player that got into the channel and those still to be sent are what its processor makes of a part
of its packets; the chunks in the channel are those that the consumer has yet to take, in the order
in which they got there; and a read of a chunk has what was stored last, if the clock goes on
between the writes of it. -/
theorem sniffedChunksStored (named : sname ≠ "") {now : Time}
    {actions : List (FanIn.Action ι SessionAction (IngestAction Time L D Proxy.Chunk))}
    {final : FanIn.State ι Proxy.Session (Instance Time L D) Proxy.ProxiedChunk}
    (run : (chunkPipeline s formats sname pref clients).machine.Runs (pipelineStart now) actions
      final) :
    let pipeline := chunkPipeline s formats sname pref clients
    let sent := pipeline.machine.history pipeline.handings (pipelineStart now) actions
    let stored := pipeline.machine.history (pipeline.ofConsumer (ingested formats))
      (pipelineStart now) actions
    (∀ i, ∃ done, done <+: (pipeline.machine.history (FanIn.ofProducer i packetsRead)
        (pipelineStart now) actions).filter Packet.collected ∧
      FanIn.handingsOf i sent ++ pipeline.unhanded final i =
        (received (clients i) done).SaveChannel) ∧
    sent.map Prod.snd = pipeline.machine.history FanIn.taken (pipelineStart now) actions ++
      final.buffer ∧
    final.buffer.length ≤ 144 ∧
    (TimesRise stored → ∀ (server : PgServer Time) wname dname x z,
      GetChunkRaw server final.consumer.db.tables none wname dname x z =
        (((stored.filter (Write.ofChunk wname dname x z)).getLast?).map Write.data, none)) := by
  intro pipeline sent stored
  have flow := FanIn.flow_of_runs (f := pipeline) (fun _ _ _ _ => session_sent) run
  have logOf : LogOf stored final.consumer.db := by
    have own := (ingestLogged named (FanIn.consumer_runs run)).1
    have same : stored = _ := FanIn.history_ofConsumer (f := pipeline) (ingested formats) run
    rw [same]
    exact own
  refine ⟨fun i => ?_, flow.inOrder, flow.bounded, fun rise server wname dname x z => ?_⟩
  · obtain ⟨done, partOf, -, same, -⟩ := sessionSniffsInOrder (FanIn.producer_runs run i)
    refine ⟨done, ?_, (flow.sent_eq i).symm.trans same⟩
    rw [FanIn.history_ofProducer (f := pipeline) i packetsRead run]
    exact partOf
  · exact (reads_of_log logOf (ordered_of_log logOf rise) server .notImplemented wname dname
      x z).1

/-- From every state in which no session has panicked and the consumer runs, everything that the
sessions have sent gets to the consumer: no more moves are to be made than the chunks need, and when
none can be made, each player's chunks were taken, all of them and in their order. -/
theorem pipelineDrains {now : Time}
    {actions later : List (FanIn.Action ι SessionAction (IngestAction Time L D Proxy.Chunk))}
    {middle final : FanIn.State ι Proxy.Session (Instance Time L D) Proxy.ProxiedChunk}
    (run : (chunkPipeline s formats sname pref clients).machine.Runs (pipelineStart now) actions
      middle)
    (running : middle.stopped = false) (alive : ∀ i, (middle.producers i).panicked = none)
    (moving : (chunkPipeline s formats sname pref clients).machine.Runs middle later final)
    (moves : ∀ action ∈ later, action.moves = true) :
    let pipeline := chunkPipeline s formats sname pref clients
    let sent := pipeline.machine.history pipeline.handings (pipelineStart now) (actions ++ later)
    later.length + pipeline.onWay final = pipeline.onWay middle ∧
      ((∀ action, action.moves = true → pipeline.machine.step final action = none) →
        (∀ i, FanIn.handingsOf i sent = (middle.producers i).acceptor.SaveChannel) ∧
        sent.map Prod.snd = pipeline.machine.history FanIn.taken (pipelineStart now)
          (actions ++ later)) := by
  intro pipeline sent
  obtain ⟨paid, producers, stopped⟩ := FanIn.length_of_moves moving moves
  refine ⟨paid, fun stuck => ?_⟩
  have flow := FanIn.flow_of_runs (f := pipeline) (fun _ _ _ _ => session_sent)
    (run.append moving)
  have arrived : pipeline.onWay final = 0 := by
    by_contra waiting
    have living : ∀ i, pipeline.dead (final.producers i) = false := by
      intro i
      rw [producers]
      exact (congrArg Option.isSome (alive i)).trans rfl
    obtain ⟨action, next, move, taken⟩ := FanIn.exists_move (f := pipeline) living
      (stopped.trans running) (Nat.succ_pos 143) (fun _ => rfl) waiting
    cases (stuck action move).symm.trans taken
  obtain ⟨handed, empty⟩ := FanIn.onWay_eq_zero.mp arrived
  refine ⟨fun i => ?_, ?_⟩
  · have all := flow.sent_eq i
    rw [handed i, List.append_nil, producers] at all
    exact all.symm
  · have inOrder := flow.inOrder
    rw [empty, List.append_nil] at inOrder
    exact inOrder

end Runs

/-- Two players of one server. -/
def twoPlayers : Fin 2 → ClientInfo := fun _ => sniffedPlayer

/-- The steps in which a player logs in and its processor sends a chunk. -/
def loginAndSniff (content : Proxy.Chunk) : List SessionAction :=
  [.serverRead (.ok (.login (some ⟨some overworldOnly, "minecraft:overworld",
      "minecraft:overworld"⟩))), .collect, .serverPush,
    .serverRead (.ok (.levelChunkWithLight (some (⟨0, 0⟩, content)))), .collect, .processorTake,
    .process, .processorPush, .processorTake, .process]

/-- A chunk is stored as the number of its block entities. -/
def countingFormats : Formats Unit Proxy.Chunk where
  ConvFlexibleNBTtoSave _ := .ok ()
  XPos _ := 0
  ZPos _ := 0
  marshal _ _ data := .ok [UInt8.ofNat data.BlockEntity.length]

def samplePipeline : FanIn (Fin 2) Proxy.Session SessionAction (Instance Nat Unit Unit)
    (IngestAction Nat Unit Unit Proxy.Chunk) Proxy.ProxiedChunk :=
  chunkPipeline samplePostgres countingFormats "main" "" twoPlayers

/-- Both players receive the same chunk, the second one with a block entity; nothing is in the
channel yet. -/
def bothSniff :
    List (FanIn.Action (Fin 2) SessionAction (IngestAction Nat Unit Unit Proxy.Chunk)) :=
  (loginAndSniff ⟨[], []⟩).map (.produce 0) ++
    (loginAndSniff ⟨[], [⟨0, 0, 1, ⟨0, []⟩⟩]⟩).map (.produce 1)

/-- The second player's chunk gets into the channel first, and the clock goes on in between. -/
def passedOn :
    List (FanIn.Action (Fin 2) SessionAction (IngestAction Nat Unit Unit Proxy.Chunk)) :=
  bothSniff ++ [.hand 1, .hand 0, .take, .other (.tick 1), .take]

theorem bothSniff_executes :
    (samplePipeline.machine.exec (pipelineStart 0) bothSniff).isSome := by
  decide +kernel

theorem passedOn_executes : (samplePipeline.machine.exec (pipelineStart 0) passedOn).isSome := by
  decide +kernel

def bothSniffed : FanIn.State (Fin 2) Proxy.Session (Instance Nat Unit Unit) Proxy.ProxiedChunk :=
  (samplePipeline.machine.exec (pipelineStart 0) bothSniff).get bothSniff_executes

def bothStored : FanIn.State (Fin 2) Proxy.Session (Instance Nat Unit Unit) Proxy.ProxiedChunk :=
  (samplePipeline.machine.exec (pipelineStart 0) passedOn).get passedOn_executes

/-- The first player's chunk is read, which was stored last. -/
theorem sniffedChunksStored_twoPlayers :
    GetChunkRaw (Sql.Server.insertion _) bothStored.consumer.db.tables none "localhost" "overworld"
      0 0 = (some [0], none) := by
  have run : samplePipeline.machine.Runs (pipelineStart 0) passedOn bothStored :=
    Machine.runs_exec_get passedOn_executes
  have read := (sniffedChunksStored samplePostgres countingFormats "main" "" twoPlayers (by decide)
    run).2.2.2 (by decide +kernel) (Sql.Server.insertion _) "localhost" "overworld" 0 0
  rw [read]
  decide +kernel

theorem allTaken_executes :
    (samplePipeline.machine.exec bothSniffed [.hand 1, .hand 0, .take, .take]).isSome := by
  decide +kernel

def allTaken : FanIn.State (Fin 2) Proxy.Session (Instance Nat Unit Unit) Proxy.ProxiedChunk :=
  (samplePipeline.machine.exec bothSniffed [.hand 1, .hand 0, .take, .take]).get allTaken_executes

theorem pipelineDrains_twoPlayers :
    (samplePipeline.machine.history samplePipeline.handings (pipelineStart 0)
      (bothSniff ++ [.hand 1, .hand 0, .take, .take])).map Prod.snd =
        samplePipeline.machine.history FanIn.taken (pipelineStart 0)
          (bothSniff ++ [.hand 1, .hand 0, .take, .take]) := by
  have stuck : ∀ action, action.moves = true →
      samplePipeline.machine.step allTaken action = none := by
    intro action moves
    cases action with
    | hand i => exact Option.isNone_iff_eq_none.mp (by revert i; decide +kernel)
    | take => exact Option.isNone_iff_eq_none.mp (by decide +kernel)
    | produce | other | stop => cases moves
  exact ((pipelineDrains samplePostgres countingFormats "main" "" twoPlayers
    (Machine.runs_exec_get bothSniff_executes) rfl (by decide +kernel)
    (Machine.runs_exec_get allTaken_executes) (by decide)).2 stuck).2

end WebChunk.Server
