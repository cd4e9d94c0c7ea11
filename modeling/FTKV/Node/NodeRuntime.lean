import FTKV.Grpc.Calls
import FTKV.Raft.Emissions

/-!
# Sending messages between nodes

`NodeRuntime::send_message` sends a queued request to a peer through the RPC
client and lets the local node handle the response.  The two nodes end up as if
the request and the response had been delivered directly.

## Assumptions about gRPC

A stub runs the handler of the service behind its endpoint once, on the message
it was given, and returns the status and the response of the handler.
-/

namespace FTKV
namespace Node

open Foundation
open Foundation.Effect
open Raft (NodeId Message RaftConfig RaftNode RaftStorage RandomEngine Operation)

/-!
# Configuration
-/

/-- `std::map<raft::NodeId, std::string>`, which iterates in key order. -/
structure PeerMap where
  entries : List (NodeId × String)
  ascending : (entries.map Prod.fst).Pairwise (· < ·)

structure NodeRuntimeConfig where
  nodeId : NodeId
  peers : PeerMap
  electionTimeoutMin : Int := 300
  electionTimeoutMax : Int := 500
  heartbeatInterval : Int := 100

def raftConfig (config : NodeRuntimeConfig) : RaftConfig :=
  let result : RaftConfig := {}
  { result with
    nodeId := config.nodeId
    electionTimeoutMin := config.electionTimeoutMin
    electionTimeoutMax := config.electionTimeoutMax
    heartbeatInterval := config.heartbeatInterval
    randomSeed := result.randomSeed ^^^ config.nodeId
    peers := config.peers.entries.map Prod.fst }

/-!
# The runtime
-/

abbrev Nodes (storage random : Type) := NodeId -> RaftNode storage random

def atNode {storage random fault result : Type} (id : NodeId)
    (x : Effect (RaftNode storage random) fault result) :
    Effect (Nodes storage random) fault result :=
  within (fun nodes => nodes id) (fun n nodes => Function.update nodes id n) x

structure NodeRuntime (storage random : Type) where
  config : NodeRuntimeConfig
  /-- The stub that gRPC creates for an endpoint. -/
  newStub : String -> Rpc.RaftStub (Nodes storage random)
  sleepFor : Int -> Effect (Nodes storage random) Rpc.Fault Unit

namespace NodeRuntime

variable {storage random : Type} [RaftStorage storage] [RandomEngine random]

def clientOptions : Rpc.GrpcClientOptions where
  timeout := 150
  maxAttempts := 2
  initialBackoff := 10
  maximumBackoff := 25

def peerClients (runtime : NodeRuntime storage random) :
    List (NodeId × Rpc.GrpcClient (Nodes storage random)) :=
  runtime.config.peers.entries.map fun peer =>
    (peer.1, ⟨clientOptions, runtime.newStub peer.2, runtime.sleepFor⟩)

def stepLocal (runtime : NodeRuntime storage random) (message : Message) :
    Effect (Nodes storage random) Rpc.Fault Unit := do
  let _ <- atNode runtime.config.nodeId
    (raising Rpc.Fault.raft (RaftNode.step message))
  pure ()

def sendThrough (runtime : NodeRuntime storage random)
    (client : Rpc.GrpcClient (Nodes storage random)) (message : Message) :
    Effect (Nodes storage random) Rpc.Fault Unit :=
  match message.rpc with
  | .requestVoteRequest request => do
      let response <- client.requestVote runtime.config.nodeId request
      runtime.stepLocal ⟨message.toNode, runtime.config.nodeId,
        .requestVoteResponse response⟩
  | .appendEntriesRequest request => do
      let response <- client.appendEntries runtime.config.nodeId request
      runtime.stepLocal ⟨message.toNode, runtime.config.nodeId,
        .appendEntriesResponse response⟩
  | _ => pure ()

def sendMessage (runtime : NodeRuntime storage random) (message : Message) :
    Effect (Nodes storage random) Rpc.Fault Unit :=
  match runtime.peerClients.lookup message.toNode with
  | none => pure ()
  | some client =>
      tryCatch (runtime.sendThrough client message) fun fault =>
        -- Raft retries elections and replication on later ticks.
        match fault with
        | .grpcError _ => pure ()
        | fault => throw fault

end NodeRuntime

/-!
# Direct delivery
-/

section Delivery

variable {storage random : Type} [RaftStorage storage] [RandomEngine random]

/--
Deliver a message with `step`, take the response that this has queued, and
deliver the response to the node it is for.
-/
def deliverDirectly (message : Message) (nodes : Nodes storage random) :
    Nodes storage random :=
  let receiver := nodes message.toNode
  let delivered := (outcome (RaftNode.step message) receiver).2
  let position := receiver.outbox.length
  let nodes' := Function.update nodes message.toNode
    { delivered with outbox := delivered.outbox.eraseIdx position }
  match delivered.outbox[position]? with
  | none => nodes'
  | some response => Function.update nodes' response.toNode
      (outcome (RaftNode.step response) (nodes' response.toNode)).2

/-- The stub of a client runs the service of a peer, whatever library the peer has. -/
structure BelongsTo (stub : Rpc.RaftStub (Nodes storage random)) (peer : NodeId)
    (text : String) : Prop where
  requestVote : forall request, stub.requestVote request =
    atNode peer (Rpc.RaftService.requestVote { outOfRangeText := text } request)
  appendEntries : forall request, stub.appendEntries request =
    atNode peer (Rpc.RaftService.appendEntries { outOfRangeText := text } request)

variable {message : Message} {nodes : Nodes storage random} {text : String}

inductive Called {response : Type} (message : Message) (nodes : Nodes storage random)
    (wrap : response -> Raft.Rpc) :
    Except Rpc.Fault response -> Nodes storage random -> Prop where
  | answered {n' : RaftNode storage random} {value : response}
      (hstep : outcome (RaftNode.step message) (nodes message.toNode) = (.ok true, n'))
      (houtbox : n'.outbox = (nodes message.toNode).outbox ++
        [⟨message.toNode, message.fromNode, wrap value⟩]) :
      Called message nodes wrap (.ok value) (Function.update nodes message.toNode
        { n' with outbox := (nodes message.toNode).outbox })
  | failed {n' : RaftNode storage random} {r : Except Raft.Fault Bool}
      {fault : Rpc.Fault}
      (hstep : outcome (RaftNode.step message) (nodes message.toNode) = (r, n'))
      (hnone : r ≠ .ok true)
      (houtbox : n'.outbox = (nodes message.toNode).outbox) :
      Called message nodes wrap (.error fault)
        (Function.update nodes message.toNode n')

theorem ensures_call_service {wire response : Type} [Inhabited wire]
    {client : Rpc.GrpcClient (Nodes storage random)} {operation notMember : String}
    {convert : Raft.Rpc -> Except Rpc.Fault wire} {decode : wire -> response}
    {wrap : response -> Raft.Rpc} (hattempts : client.options.maxAttempts ≠ 0)
    (hreceiver : message.toNode = (nodes message.toNode).config.nodeId)
    (hrequest : RaftNode.isRequest message = true)
    (hconvert : forall answer, Raft.AnswerTo message.rpc answer ->
      exists value, convert answer = .ok value ∧ wrap (decode value) = answer) :
    Ensures (do
      let value <- client.call operation (atNode message.toNode
        (Rpc.runHandler { outOfRangeText := text }
          (Rpc.RaftService.handle message.fromNode message.rpc notMember convert)))
      pure (decode value)) nodes (Called message nodes wrap) := by
  rw [ensures_bind]
  refine Rpc.ensures_call hattempts ?_
  unfold atNode
  rw [ensures_within]
  refine ensures_mono (Rpc.ensures_runHandler text hreceiver hrequest ?_) ?_
  · intro answer hanswer
    rcases hconvert answer hanswer with ⟨value, hvalue, -⟩
    exact ⟨value, hvalue⟩
  · intro r n' hserved
    cases hserved with
    | refused hstep hnone houtbox hcode hfinal =>
        exact Or.inr ⟨hcode, hfinal, fun error => .failed hstep hnone houtbox⟩
    | undefined hstep hnone houtbox hfault => exact .failed hstep hnone houtbox
    | @answered n' answer value hstep hanswer houtbox hvalue =>
        rcases hconvert answer hanswer with ⟨value', hvalue', hwrap⟩
        rw [hvalue] at hvalue'
        cases hvalue'
        rw [← hwrap] at houtbox
        exact Or.inl ⟨rfl, .answered hstep houtbox⟩

theorem ensures_requestVote {client : Rpc.GrpcClient (Nodes storage random)}
    {request : Raft.RequestVoteRequest} (hattempts : client.options.maxAttempts ≠ 0)
    (hbelongs : BelongsTo client.raftStub message.toNode text)
    (hreceiver : message.toNode = (nodes message.toNode).config.nodeId)
    (hrpc : message.rpc = .requestVoteRequest request)
    (hsender : request.candidateId = message.fromNode) :
    Ensures (client.requestVote message.fromNode request) nodes
      (Called message nodes .requestVoteResponse) := by
  have hservice : Rpc.RaftService.requestVote { outOfRangeText := text }
      (Rpc.V1.RequestVoteRequest.ofRequest request) =
        (Rpc.runHandler { outOfRangeText := text }
          (Rpc.RaftService.handle message.fromNode message.rpc
            "RequestVote sender is not a cluster member" Rpc.RaftService.convertVote) :
          Effect (RaftNode storage random) _ _) := by
    rw [hrpc, ← hsender]
    rfl
  unfold Rpc.GrpcClient.requestVote
  rw [if_neg (not_not.mpr hsender), hbelongs.requestVote, hservice]
  refine ensures_call_service hattempts hreceiver ?_ ?_
  · unfold RaftNode.isRequest
    rw [hrpc]
  · intro answer hanswer
    rw [hrpc] at hanswer
    cases hanswer with
    | vote request response => exact ⟨_, rfl, rfl⟩

theorem toRequest_ofRequest (request : Raft.AppendEntriesRequest) :
    (Rpc.V1.AppendEntriesRequest.ofRequest request).toRequest = request := by
  have hentry : Rpc.V1.RaftLogEntry.toEntry ∘ Rpc.V1.RaftLogEntry.ofEntry = id := rfl
  unfold Rpc.V1.AppendEntriesRequest.ofRequest Rpc.V1.AppendEntriesRequest.toRequest
  rw [List.map_map, hentry, List.map_id]

theorem toResponse_ofResponse (response : Raft.AppendEntriesResponse) :
    (Rpc.V1.AppendEntriesResponse.ofResponse response).toResponse = response := by
  rcases response with ⟨term, success, matchIndex, conflictIndex, conflictTerm, id⟩
  cases conflictTerm <;> rfl

theorem ensures_appendEntries {client : Rpc.GrpcClient (Nodes storage random)}
    {request : Raft.AppendEntriesRequest}
    (hattempts : client.options.maxAttempts ≠ 0)
    (hbelongs : BelongsTo client.raftStub message.toNode text)
    (hreceiver : message.toNode = (nodes message.toNode).config.nodeId)
    (hrpc : message.rpc = .appendEntriesRequest request)
    (hsender : request.leaderId = message.fromNode) :
    Ensures (client.appendEntries message.fromNode request) nodes
      (Called message nodes .appendEntriesResponse) := by
  have hservice : Rpc.RaftService.appendEntries { outOfRangeText := text }
      (Rpc.V1.AppendEntriesRequest.ofRequest request) =
        (Rpc.runHandler { outOfRangeText := text }
          (Rpc.RaftService.handle message.fromNode message.rpc
            "AppendEntries sender is not a cluster member"
            Rpc.RaftService.convertAppend) :
          Effect (RaftNode storage random) _ _) := by
    unfold Rpc.RaftService.appendEntries
    rw [toRequest_ofRequest, hrpc, ← hsender]
    rfl
  unfold Rpc.GrpcClient.appendEntries
  rw [if_neg (not_not.mpr hsender), hbelongs.appendEntries, hservice]
  refine ensures_call_service hattempts hreceiver ?_ ?_
  · unfold RaftNode.isRequest
    rw [hrpc]
  · intro answer hanswer
    rw [hrpc] at hanswer
    cases hanswer with
    | @append _ response hid =>
        refine ⟨_, rfl, ?_⟩
        rw [toResponse_ofResponse]

/-!
# Sending is delivering
-/

theorem deliverDirectly_of_answer {n' : RaftNode storage random}
    {r : Except Raft.Fault Bool} {response : Message}
    (hstep : outcome (RaftNode.step message) (nodes message.toNode) = (r, n'))
    (houtbox : n'.outbox = (nodes message.toNode).outbox ++ [response]) :
    deliverDirectly message nodes =
      (let nodes' := Function.update nodes message.toNode
        { n' with outbox := (nodes message.toNode).outbox }
      Function.update nodes' response.toNode
        (outcome (RaftNode.step response) (nodes' response.toNode)).2) := by
  have herase : ((nodes message.toNode).outbox ++ [response]).eraseIdx
      (nodes message.toNode).outbox.length = (nodes message.toNode).outbox := by
    rw [List.eraseIdx_append_of_length_le (Nat.le_refl _), Nat.sub_self]
    exact List.append_nil _
  unfold deliverDirectly
  simp only [hstep, houtbox, List.getElem?_concat_length, herase]

theorem deliverDirectly_of_silence {n' : RaftNode storage random}
    {r : Except Raft.Fault Bool}
    (hstep : outcome (RaftNode.step message) (nodes message.toNode) = (r, n'))
    (houtbox : n'.outbox = (nodes message.toNode).outbox) :
    deliverDirectly message nodes = Function.update nodes message.toNode n' := by
  have hlength : n'.outbox.length <= (nodes message.toNode).outbox.length := by
    rw [houtbox]
  unfold deliverDirectly
  simp only [hstep, List.getElem?_eq_none hlength, List.eraseIdx_of_length_le hlength]

theorem ensures_stepLocal {runtime : NodeRuntime storage random} :
    Ensures (runtime.stepLocal message) nodes (fun _ nodes' =>
      nodes' = Function.update nodes runtime.config.nodeId
        (outcome (RaftNode.step message) (nodes runtime.config.nodeId)).2) := by
  have hstep : Ensures (atNode runtime.config.nodeId
      (raising Rpc.Fault.raft (RaftNode.step message))) nodes (fun _ nodes' =>
        nodes' = Function.update nodes runtime.config.nodeId
          (outcome (RaftNode.step message) (nodes runtime.config.nodeId)).2) := by
    unfold atNode
    rw [ensures_within, ensures_raising]
    rfl
  refine ensures_bind_of hstep ?_ ?_
  · intro handled nodes' hnodes
    exact hnodes
  · intro fault nodes' hnodes
    exact hnodes

theorem ensures_exchange {response : Type} {runtime : NodeRuntime storage random}
    {call : Effect (Nodes storage random) Rpc.Fault response}
    {wrap : response -> Raft.Rpc}
    (hsender : message.fromNode = runtime.config.nodeId)
    (hcall : Ensures call nodes (Called message nodes wrap)) :
    Ensures (do
      let value <- call
      runtime.stepLocal ⟨message.toNode, runtime.config.nodeId, wrap value⟩) nodes
      (fun _ nodes' => nodes' = deliverDirectly message nodes) := by
  refine ensures_bind_of hcall ?_ ?_
  · intro value nodes' hcalled
    cases hcalled with
    | answered hstep houtbox =>
        rw [deliverDirectly_of_answer hstep houtbox, hsender]
        exact ensures_stepLocal
  · intro fault nodes' hcalled
    cases hcalled with
    | failed hstep hnone houtbox =>
        exact (deliverDirectly_of_silence hstep houtbox).symm

omit [RaftStorage storage] [RandomEngine random] in
theorem lookup_peerClients {runtime : NodeRuntime storage random} {peer : NodeId}
    (hpeer : peer ∈ (raftConfig runtime.config).peers) :
    exists endpoint, (peer, endpoint) ∈ runtime.config.peers.entries ∧
      runtime.peerClients.lookup peer = some ⟨NodeRuntime.clientOptions,
        runtime.newStub endpoint, runtime.sleepFor⟩ := by
  unfold NodeRuntime.peerClients
  change peer ∈ runtime.config.peers.entries.map Prod.fst at hpeer
  generalize runtime.config.peers.entries = entries at hpeer ⊢
  induction entries with
  | nil => cases hpeer
  | cons first rest ih =>
      rcases first with ⟨id, endpoint⟩
      by_cases hfirst : peer = id
      · subst hfirst
        exact ⟨endpoint, List.mem_cons_self .., by simp⟩
      · rcases ih (List.mem_of_ne_of_mem hfirst hpeer) with ⟨found, hmem, hlookup⟩
        refine ⟨found, List.mem_cons_of_mem _ hmem, ?_⟩
        rw [List.map_cons, List.lookup_cons, beq_false_of_ne hfirst]
        exact hlookup

/-- The message was put into the outbox by a node with this configuration. -/
def Queued (storage random : Type) [RaftStorage storage] [RandomEngine random]
    (config : RaftConfig) (message : Message) : Prop :=
  exists (store : storage) (node : RaftNode storage random)
    (ops : List Operation) (op : Operation),
    RaftNode.create config store = .ok node ∧ message ∈ op.enqueues (node.after ops)

theorem namesSender_of_queued {config : RaftConfig}
    (hqueued : Queued storage random config message)
    (hrequest : RaftNode.isRequest message = true) :
    message.fromNode = config.nodeId ∧ message.toNode ∈ config.peers ∧
      message.fromNode ≠ message.toNode ∧ Raft.NamesSender message := by
  rcases hqueued with ⟨store, node, ops, op, hcreate, hmessage⟩
  have hfresh := Raft.fresh_of_create hcreate
  have hwell := Raft.wellFormed_after hfresh.well ops
  rcases Raft.emitted_of_enqueues hwell hmessage with ⟨middle, hpath, hsends, -⟩
  have hconfig : middle.config = config := by
    rw [(Raft.wellFormed_path hwell hpath).right.config, ← hfresh.config_eq]
    exact Raft.config_after hfresh.well ops
  rcases Raft.sends_namesSender hsends hrequest with ⟨hfrom, hto, hnames⟩
  rw [hconfig] at hfrom hto
  refine ⟨hfrom, hto, ?_, hnames⟩
  intro heq
  have hself := hfresh.well.self
  rw [hfresh.config_eq, ← hfrom, heq] at hself
  exact hself hto

/-- Each endpoint in the configuration is that of the peer it is listed for. -/
def EndpointsBelong (runtime : NodeRuntime storage random)
    (nodes : Nodes storage random) : Prop :=
  forall peer endpoint, (peer, endpoint) ∈ runtime.config.peers.entries ->
    (exists text, BelongsTo (runtime.newStub endpoint) peer text) ∧
      (nodes peer).config.nodeId = peer

theorem ensures_sendThrough {runtime : NodeRuntime storage random}
    {client : Rpc.GrpcClient (Nodes storage random)}
    (hattempts : client.options.maxAttempts ≠ 0)
    (hbelongs : BelongsTo client.raftStub message.toNode text)
    (hreceiver : message.toNode = (nodes message.toNode).config.nodeId)
    (hfrom : message.fromNode = runtime.config.nodeId)
    (hnames : Raft.NamesSender message)
    (hrequest : RaftNode.isRequest message = true) :
    Ensures (runtime.sendThrough client message) nodes
      (fun _ nodes' => nodes' = deliverDirectly message nodes) := by
  unfold Raft.NamesSender at hnames
  unfold RaftNode.isRequest at hrequest
  unfold NodeRuntime.sendThrough
  cases hrpc : message.rpc with
  | requestVoteRequest request =>
      rw [hrpc] at hnames
      have hcall := ensures_requestVote hattempts hbelongs hreceiver hrpc hnames
      rw [hfrom] at hcall
      exact ensures_exchange hfrom hcall
  | appendEntriesRequest request =>
      rw [hrpc] at hnames
      have hcall := ensures_appendEntries hattempts hbelongs hreceiver hrpc hnames
      rw [hfrom] at hcall
      exact ensures_exchange hfrom hcall
  | requestVoteResponse response =>
      rw [hrpc] at hrequest
      cases hrequest
  | appendEntriesResponse response =>
      rw [hrpc] at hrequest
      cases hrequest

theorem ensures_sendMessage {runtime : NodeRuntime storage random}
    (hqueued : Queued storage random (raftConfig runtime.config) message)
    (hrequest : RaftNode.isRequest message = true)
    (hendpoints : EndpointsBelong runtime nodes) :
    Ensures (runtime.sendMessage message) nodes
      (fun _ nodes' => nodes' = deliverDirectly message nodes) := by
  rcases namesSender_of_queued hqueued hrequest with ⟨hfrom, hto, -, hnames⟩
  rcases lookup_peerClients hto with ⟨endpoint, hentry, hlookup⟩
  rcases hendpoints _ _ hentry with ⟨⟨text, hbelongs⟩, hid⟩
  unfold NodeRuntime.sendMessage
  rw [hlookup]
  refine ensures_tryCatch (ensures_sendThrough nofun hbelongs hid.symm hfrom hnames
    hrequest) ?_ ?_
  · intro _ nodes' hnodes
    exact hnodes
  · intro fault nodes' hnodes
    cases fault <;> exact hnodes

theorem deliverDirectly_unanswered
    (hrequest : RaftNode.isRequest message = true)
    (hne : message.fromNode ≠ message.toNode)
    (hnone : (nodes message.toNode).isPeerLocked message.fromNode = false ∨
      exists fault, (outcome (RaftNode.step message)
        (nodes message.toNode)).1 = .error fault) :
    deliverDirectly message nodes message.fromNode = nodes message.fromNode ∧
      (deliverDirectly message nodes message.toNode).outbox =
        (nodes message.toNode).outbox := by
  have hsilent : (outcome (RaftNode.step message) (nodes message.toNode)).2.outbox =
      (nodes message.toNode).outbox := by
    apply Raft.outbox_of_unanswered
      (Raft.ensures_stepLocked_request hrequest (nodes message.toNode))
    rcases hnone with hstranger | ⟨fault, hfault⟩
    · have hstep := Raft.outcome_step_of_not_peer hstranger
      unfold RaftNode.step at hstep
      rw [hstep]
      nofun
    · unfold RaftNode.step at hfault
      rw [hfault]
      nofun
  rw [deliverDirectly_of_silence rfl hsilent, Function.update_of_ne hne,
    Function.update_self]
  exact ⟨rfl, hsilent⟩

/--
Sending a queued request through the runtime leaves all nodes as delivering it
directly does: the receiver hands out the answer that `step` queues and keeps its
outbox, and the sender handles that answer.  If the receiver does not know the
sender, or its handler throws, neither side records an answer.
-/
theorem rpc_refines_delivery {runtime : NodeRuntime storage random}
    (hqueued : Queued storage random (raftConfig runtime.config) message)
    (hrequest : RaftNode.isRequest message = true)
    (hendpoints : EndpointsBelong runtime nodes) :
    (outcome (runtime.sendMessage message) nodes).2 = deliverDirectly message nodes ∧
      Ensures (RaftNode.handleRequest message) (nodes message.toNode)
        (Raft.Requested message (nodes message.toNode)) ∧
      ((nodes message.toNode).isPeerLocked message.fromNode = false ∨
        (exists fault, (outcome (RaftNode.step message)
          (nodes message.toNode)).1 = .error fault) ->
        (outcome (runtime.sendMessage message) nodes).2 message.fromNode =
            nodes message.fromNode ∧
          ((outcome (runtime.sendMessage message) nodes).2 message.toNode).outbox =
            (nodes message.toNode).outbox) := by
  have hsend : (outcome (runtime.sendMessage message) nodes).2 =
      deliverDirectly message nodes :=
    ensures_sendMessage hqueued hrequest hendpoints
  refine ⟨hsend, Raft.ensures_handleRequest_requested hrequest _, ?_⟩
  rw [hsend]
  exact deliverDirectly_unanswered hrequest
    (namesSender_of_queued hqueued hrequest).right.right.left

end Delivery

/-!
# Two nodes
-/

def pairNodes : Nodes Raft.InMemoryRaftStorage Raft.LeastEngine :=
  fun id => {
    config := { nodeId := id, peers := if id = 1 then [2] else [1] }
    storage := {}
    random := {}
    members := {1, 2} }

def pairRuntime : NodeRuntime Raft.InMemoryRaftStorage Raft.LeastEngine where
  config := {
    nodeId := 1
    peers := ⟨[(2, "node2:50051")], List.pairwise_singleton ..⟩ }
  newStub _ := {
    requestVote := fun request => atNode 2 (Rpc.RaftService.requestVote {} request)
    appendEntries := fun request =>
      atNode 2 (Rpc.RaftService.appendEntries {} request) }
  sleepFor _ := pure ()

def pairRequest : Message where
  fromNode := 1
  toNode := 2
  rpc := .requestVoteRequest { term := 1, candidateId := 1 }

theorem rpc_refines_delivery_pair :
    (outcome (pairRuntime.sendMessage pairRequest) pairNodes).2 =
        deliverDirectly pairRequest pairNodes ∧
      (deliverDirectly pairRequest pairNodes 2).votedFor = some 1 := by
  have hqueued : Queued Raft.InMemoryRaftStorage Raft.LeastEngine
      (raftConfig pairRuntime.config) pairRequest :=
    ⟨{}, _, [], .tick 500, rfl, by decide⟩
  have hendpoints : EndpointsBelong pairRuntime pairNodes := by
    intro peer endpoint hentry
    cases List.mem_singleton.mp hentry
    exact ⟨⟨"", fun _ => rfl, fun _ => rfl⟩, rfl⟩
  exact ⟨(rpc_refines_delivery hqueued rfl hendpoints).left, by decide⟩

end Node
end FTKV
