import FTKV.Cluster.Deployment
import FTKV.Cluster.Provenance
import FTKV.Cluster.Safety

/-!
# Deployed processes are a cluster

Every run of the deployed processes is a run of the cluster: a handler that runs
is the delivery of a request that was sent, and a worker that goes on with the
reply delivers the answer.  What holds in every run of a cluster therefore holds
of the processes.
-/

namespace FTKV
namespace Node

open Foundation
open Foundation.Effect
open Raft (NodeId Message RaftNode RaftStorage RandomEngine Operation Output Cluster
  Event Execution)

/-!
# Messages of a process
-/

def Named (id : NodeId) (message : Message) : Prop :=
  RaftNode.isRequest message = true -> message.fromNode = id ∧ Raft.NamesSender message

theorem prepare_ne_error {config : NodeRuntimeConfig} {message : Message}
    (hnamed : Named config.nodeId message) (fault : Rpc.Fault) :
    prepare config message ≠ .error fault := by
  unfold Named RaftNode.isRequest Raft.NamesSender at hnamed
  unfold prepare
  cases config.peers.entries.lookup message.toNode with
  | none => simp
  | some endpoint =>
      cases hrpc : message.rpc with
      | requestVoteRequest request =>
          simp only [hrpc] at hnamed
          rcases hnamed trivial with ⟨hfrom, hsender⟩
          simp [hsender, hfrom]
      | appendEntriesRequest request =>
          simp only [hrpc] at hnamed
          rcases hnamed trivial with ⟨hfrom, hsender⟩
          simp [hsender, hfrom]
      | requestVoteResponse response => simp
      | appendEntriesResponse response => simp

theorem prepare_some {config : NodeRuntimeConfig} {message : Message} {call : RaftCall}
    (hprepare : prepare config message = .ok (some call)) :
    call.sender = config.nodeId ∧ call.toRpc = message.rpc ∧
      RaftNode.isRequest message = true := by
  unfold prepare at hprepare
  unfold RaftNode.isRequest
  cases hlookup : config.peers.entries.lookup message.toNode with
  | none => simp [hlookup] at hprepare
  | some endpoint =>
      cases hrpc : message.rpc with
      | requestVoteRequest request =>
          simp only [hlookup, hrpc] at hprepare
          by_cases hsender : request.candidateId ≠ config.nodeId
          · simp [hsender] at hprepare
          · rw [if_neg hsender] at hprepare
            cases hprepare
            exact ⟨not_not.mp hsender, rfl, rfl⟩
      | appendEntriesRequest request =>
          simp only [hlookup, hrpc] at hprepare
          by_cases hsender : request.leaderId ≠ config.nodeId
          · simp [hsender] at hprepare
          · rw [if_neg hsender] at hprepare
            cases hprepare
            exact ⟨not_not.mp hsender,
              congrArg Raft.Rpc.appendEntriesRequest (toRequest_ofRequest request), rfl⟩
      | requestVoteResponse response => simp [hlookup, hrpc] at hprepare
      | appendEntriesResponse response => simp [hlookup, hrpc] at hprepare

section Nodes

variable {storage random : Type} [RaftStorage storage] [RandomEngine random]
  {n : RaftNode storage random}

theorem named_perform (hwell : Raft.WellFormed n)
    (hnamed : forall message, message ∈ n.outbox -> Named n.config.nodeId message)
    (op : Operation) {message : Message}
    (hmessage : message ∈ (Raft.outputOf (outcome op.perform n).1).messages ∨
      message ∈ (outcome op.perform n).2.outbox) : Named n.config.nodeId message := by
  have hhandled := (Raft.ensures_perform hwell op).drained.messages message hmessage
  rw [Raft.outbox_handled hwell op] at hhandled
  rcases List.mem_append.mp hhandled with hold | hnew
  · exact hnamed message hold
  · intro hrequest
    rcases Raft.emitted_of_enqueues hwell hnew with ⟨middle, hpath, hsends, -⟩
    have hconfig := (Raft.wellFormed_path hwell hpath).right.config
    rcases Raft.sends_namesSender hsends hrequest with ⟨hfrom, -, hnames⟩
    rw [hconfig] at hfrom
    exact ⟨hfrom, hnames⟩

end Nodes

/-!
# The cluster behind the processes
-/

def Worker.Backed (network : List Message) (id : NodeId) : Worker -> Prop
  | .sending message .calling => message ∈ network ∧ Named id message
  | .sending message (.attempting _ _ call) =>
      call.sender = id ∧ ⟨id, message.toNode, call.toRpc⟩ ∈ network
  | .sending message (.pausing _ call) =>
      call.sender = id ∧ ⟨id, message.toNode, call.toRpc⟩ ∈ network
  | .sending message (.responding rpc) => ⟨message.toNode, id, rpc⟩ ∈ network
  | _ => True

section Mirrors

variable {storage random : Type}

structure Tracks (deployment : Deployment) (network : List Message) (id : NodeId)
    (node : RaftNode storage random) (t : Threads) : Prop where
  well : Raft.WellFormed node
  config : node.config = raftConfig (deployment.config id)
  outbox : forall message, message ∈ node.outbox -> Named id message
  staged : t.Staged
  pending : forall message, message ∈ t.pending -> message ∈ network ∧ Named id message
  workers : forall worker, worker ∈ t.workers -> worker.Backed network id

variable [RaftStorage storage] [RandomEngine random]

/--
The nodes of the cluster are those of the processes.  Of a process that is down
the cluster keeps what its storage holds, unless no node can be built from it.
-/
structure Mirrors (deployment : Deployment) (s : System storage random)
    (cluster : Cluster storage random) : Prop where
  up : forall id, id ∈ deployment.members -> forall t,
    (s.machines id).threads = some t ->
      cluster.nodes id = (s.machines id).node ∧
        Tracks deployment cluster.network id (s.machines id).node t
  down : forall id, id ∈ deployment.members -> (s.machines id).threads = none ->
    (cluster.nodes id).storage = (s.machines id).node.storage ∨
      forall node : RaftNode storage random,
        RaftNode.create (raftConfig (deployment.config id))
          (s.machines id).node.storage ≠ .ok node
  terms : forall id, id ∈ deployment.members ->
    (cluster.nodes id).currentTerm ≠ 18446744073709551615
  requests : forall parcel, parcel ∈ s.requests -> parcel.message ∈ cluster.network
  replies : forall parcel reply, (parcel, reply) ∈ s.replies ->
    reply.status.code = .ok ->
      ⟨parcel.receiver, parcel.call.sender, reply.response.toRpc⟩ ∈ cluster.network

variable {deployment : Deployment} {s s' : System storage random}
  {cluster cluster' : Cluster storage random} {id : NodeId} {t t' : Threads}
  {node : RaftNode storage random} {network network' : List Message}

theorem tracks_new {store : storage}
    (hcreate : RaftNode.create (raftConfig (deployment.config id)) store = .ok node) :
    Tracks deployment network id node {} := by
  have hfresh := Raft.fresh_of_create hcreate
  refine ⟨hfresh.well, hfresh.config_eq, ?_, fun _ => ⟨rfl, rfl, rfl⟩, ?_, ?_⟩
  · rw [hfresh.outbox]
    intro message hmessage
    cases hmessage
  · intro message hmessage
    cases hmessage
  · intro worker hworker
    cases hworker

theorem Worker.backed_mono {worker : Worker} (h : worker.Backed network id)
    (hsubset : network ⊆ network') : worker.Backed network' id := by
  cases worker with
  | sending message phase =>
      cases phase with
      | calling => exact ⟨hsubset h.left, h.right⟩
      | attempting number ticket call => exact ⟨h.left, hsubset h.right⟩
      | pausing number call => exact ⟨h.left, hsubset h.right⟩
      | responding rpc => exact hsubset h
  | locking => trivial
  | testing => trivial
  | suspending => trivial
  | waiting => trivial
  | returned => trivial

omit [RaftStorage storage] [RandomEngine random] in
theorem tracks_mono (h : Tracks deployment network id node t)
    (hsubset : network ⊆ network') : Tracks deployment network' id node t where
  well := h.well
  config := h.config
  outbox := h.outbox
  staged := h.staged
  pending message hmessage :=
    ⟨hsubset (h.pending message hmessage).left, (h.pending message hmessage).right⟩
  workers worker hworker := Worker.backed_mono (h.workers worker hworker) hsubset

theorem mirrors_put {machine : Machine storage random}
    (h : Mirrors deployment s cluster)
    (hothers : forall other, other ≠ id -> cluster'.nodes other = cluster.nodes other)
    (hnetwork : cluster.network ⊆ cluster'.network)
    (hup : forall t, machine.threads = some t ->
      cluster'.nodes id = machine.node ∧
        Tracks deployment cluster'.network id machine.node t)
    (hdown : machine.threads = none ->
      (cluster'.nodes id).storage = machine.node.storage ∨
        forall node : RaftNode storage random,
          RaftNode.create (raftConfig (deployment.config id)) machine.node.storage ≠
            .ok node)
    (hterm : (cluster'.nodes id).currentTerm ≠ 18446744073709551615) :
    Mirrors deployment (s.put id machine) cluster' where
  up := by
    intro other hother t ht
    by_cases heq : other = id
    · subst heq
      rw [System.put_machines_self] at ht ⊢
      exact hup t ht
    · rw [System.put_machines_of_ne _ _ heq] at ht ⊢
      rcases h.up other hother t ht with ⟨hnode, htracks⟩
      exact ⟨(hothers other heq).trans hnode, tracks_mono htracks hnetwork⟩
  down := by
    intro other hother hnone
    by_cases heq : other = id
    · subst heq
      rw [System.put_machines_self] at hnone ⊢
      exact hdown hnone
    · rw [System.put_machines_of_ne _ _ heq] at hnone ⊢
      rw [hothers other heq]
      exact h.down other hother hnone
  terms := by
    intro other hother
    by_cases heq : other = id
    · rw [heq]
      exact hterm
    · rw [hothers other heq]
      exact h.terms other hother
  requests := fun parcel hparcel => hnetwork (h.requests parcel hparcel)
  replies := fun parcel reply hreply hcode => hnetwork (h.replies parcel reply hreply hcode)

section Threads

omit [RaftStorage storage] [RandomEngine random]

theorem tracks_moves {observation : Observation} (h : Tracks deployment network id node t)
    (hmoves : Threads.Moves (deployment.config id) t observation t')
    (hidle : forall i, observation ≠ .exchanges i)
    (htaken : forall message, message ∈ observation.taken ->
      message ∈ network ∧ Named id message) :
    Tracks deployment network id node t' where
  well := h.well
  config := h.config
  outbox := h.outbox
  staged := Threads.staged_moves h.staged hmoves
  pending := by
    intro message hmessage
    rcases Threads.mem_pending_moves h.staged hmoves hmessage with hold | hnew
    · exact h.pending message hold
    · exact htaken message hnew
  workers := by
    intro worker hworker
    rcases Threads.mem_workers_moves hmoves hworker with hold | hnone |
      ⟨message, hmessage, rfl⟩ | ⟨i, before, hexchanges, -⟩
    · exact h.workers worker hold
    · cases worker with
      | sending message phase => exact absurd rfl (hnone message phase)
      | locking => trivial
      | testing => trivial
      | suspending => trivial
      | waiting => trivial
      | returned => trivial
    · exact h.pending message hmessage
    · exact absurd hexchanges (hidle i)

theorem tracks_put {i : Nat} {before after : Worker}
    (h : Tracks deployment network id node t) (hworker : t.workers[i]? = some before)
    (hne : before ≠ .returned) (hbacked : after.Backed network id) :
    Tracks deployment network id node (t.put i after) where
  well := h.well
  config := h.config
  outbox := h.outbox
  staged := Threads.staged_beside h.staged (Threads.beside_put after hworker hne)
  pending := h.pending
  workers := by
    intro worker hmem
    rcases List.mem_or_eq_of_mem_set hmem with hold | rfl
    · exact h.workers worker hold
    · exact hbacked

theorem observe_internal {action : Action} (hinternal : action.internal = true) :
    (t.observe action).taken = [] ∧ forall i, t.observe action ≠ .exchanges i := by
  cases action with
  | worker i =>
      simp only [Threads.observe]
      split
      · cases t.queue <;> simp [Observation.taken]
      · simp [Observation.taken]
  | control =>
      simp only [Threads.observe]
      split <;> simp [Observation.taken]
  | start => simp [Threads.observe, Observation.taken]
  | stop => simp [Threads.observe, Observation.taken]
  | fail => simp [Threads.observe, Observation.taken]
  | ticker => simp [Threads.observe, Observation.taken]
  | wake i => simp [Threads.observe, Observation.taken]
  | ticked => cases hinternal
  | taken messages => cases hinternal
  | call i ticket => cases hinternal
  | conclude i reply => cases hinternal
  | responded i => cases hinternal
  | throws worker => cases hinternal

theorem tracks_internal {action : Action} (h : Tracks deployment network id node t)
    (hinternal : action.internal = true)
    (hnext : t.next (deployment.config id) action = some t') :
    Tracks deployment network id node t' := by
  rcases observe_internal (t := t) hinternal with ⟨hnone, hidle⟩
  refine tracks_moves h (Threads.moves_of_next hnext) hidle ?_
  rw [hnone]
  intro message hmessage
  cases hmessage

end Threads

theorem tracks_operate (hid : id ∈ deployment.members)
    (h : Tracks deployment network id node t) (op : Operation) :
    Tracks deployment network id (outcome op.perform node).2 t ∧
      forall message,
        message ∈ (Raft.outputOf (outcome op.perform node).1).messages ->
          Named id message := by
  have hnodeId : node.config.nodeId = id := by
    rw [h.config]
    exact deployment.nodeId_eq id hid
  have hnamed : forall message,
      message ∈ (Raft.outputOf (outcome op.perform node).1).messages ∨
        message ∈ (outcome op.perform node).2.outbox -> Named id message := by
    intro message hmessage
    rw [← hnodeId]
    refine named_perform h.well ?_ op hmessage
    rw [hnodeId]
    exact h.outbox
  refine ⟨⟨(Raft.perform_spec h.well op).left, ?_, ?_, h.staged, h.pending, h.workers⟩, ?_⟩
  · exact (Raft.config_after h.well [op]).trans h.config
  · exact fun message hmessage => hnamed message (Or.inr hmessage)
  · exact fun message hmessage => hnamed message (Or.inl hmessage)

/-!
# One deed
-/

def OfRuntime : Event -> Prop
  | .operation _ (.propose _) => False
  | .operation _ .takeCommittedEntries => False
  | _ => True

def Follows (deployment : Deployment) (cluster cluster' : Cluster storage random) :
    Option Event -> Prop
  | none => cluster' = cluster
  | some event => OfRuntime event ∧
      cluster.next deployment.membership event = some cluster'

theorem follows_operation {op : Operation} (hid : id ∈ deployment.members)
    (hruntime : OfRuntime (.operation id op)) (hdelivers : cluster.delivers op)
    (hreturns : forall cause,
      (outcome op.perform (cluster.nodes id)).1 ≠ .error (.storage cause)) :
    Follows deployment cluster (cluster.install id
      (outcome op.perform (cluster.nodes id)).2
      (Raft.outputOf (outcome op.perform (cluster.nodes id)).1).messages)
      (some (.operation id op)) := by
  refine ⟨hruntime, ?_⟩
  -- No save throws, so that the first branch is out of question.
  simp only [Cluster.next]
  exact if_pos ⟨hid, hdelivers⟩

theorem follows_rebuild {event : Event} {store : storage} (hruntime : OfRuntime event)
    (hnext : cluster.next deployment.membership event =
      cluster.rebuild deployment.membership id store)
    (hcreate : RaftNode.create (raftConfig (deployment.config id)) store = .ok node) :
    Follows deployment cluster (cluster.install id node []) (some event) := by
  refine ⟨hruntime, ?_⟩
  rw [hnext]
  unfold Cluster.rebuild
  have hconfig : RaftNode.create (deployment.membership.config id) store = .ok node :=
    hcreate
  rw [hconfig]

omit [RaftStorage storage] [RandomEngine random] in
theorem subset_install (cluster : Cluster storage random) (id : NodeId)
    (node : RaftNode storage random) (sent : List Message) :
    cluster.network ⊆ (cluster.install id node sent).network :=
  List.subset_append_left _ _

omit [RaftStorage storage] [RandomEngine random] in
theorem delivers_of_calls {op : Operation} {resume : Output -> Action}
    (hid : id ∈ deployment.members) (h : Tracks deployment cluster.network id node t)
    (hcalls : Calls (deployment.config id) t op resume) :
    cluster.delivers op ∧ OfRuntime (.operation id op) := by
  cases hcalls with
  | tick elapsed hticker => exact ⟨rfl, trivial⟩
  | take hticker => exact ⟨rfl, trivial⟩
  | @respond i message rpc hworker =>
      have hbacked := h.workers _ (List.mem_of_getElem? hworker)
      refine ⟨?_, trivial⟩
      unfold Cluster.delivers Operation.inbox
      rw [deployment.nodeId_eq id hid]
      change ⟨message.toNode, id, rpc⟩ ∈ cluster.network at hbacked
      simpa using hbacked

omit [RaftStorage storage] [RandomEngine random] in
theorem tracks_resume {op : Operation} {resume : Output -> Action} {output : Output}
    (h : Tracks deployment network id node t)
    (hcalls : Calls (deployment.config id) t op resume)
    (hsent : forall message, message ∈ output.messages ->
      message ∈ network ∧ Named id message)
    (hnext : t.next (deployment.config id) (resume output) = some t') :
    Tracks deployment network id node t' := by
  cases hcalls with
  | tick elapsed hticker =>
      refine tracks_moves h (Threads.moves_of_next hnext) (by simp [Threads.observe]) ?_
      intro message hmessage
      cases hmessage
  | take hticker =>
      exact tracks_moves h (Threads.moves_of_next hnext) (by simp [Threads.observe]) hsent
  | @respond i message rpc hworker =>
      have hstep := (Threads.next_eq_some_iff.mp hnext).right
      simp only [Threads.step, hworker, Option.some.injEq] at hstep
      rw [← hstep]
      exact tracks_put h hworker (by simp) trivial

theorem mirrors_operates {op : Operation} {resume : Output -> Action} {output : Output}
    (h : Mirrors deployment s cluster) (hid : id ∈ deployment.members)
    (hup : (s.machines id).threads = some t)
    (hcalls : Calls (deployment.config id) t op resume)
    (houtcome : outcome op.perform (s.machines id).node = (.ok output, node))
    (hnext : t.next (deployment.config id) (resume output) = some t')
    (hterm : node.currentTerm ≠ 18446744073709551615) :
    exists cluster' event, Follows deployment cluster cluster' event ∧
      Mirrors deployment (s.put id ⟨node, some t'⟩) cluster' := by
  rcases h.up id hid t hup with ⟨hnode, htracks⟩
  rcases delivers_of_calls hid htracks hcalls with ⟨hdelivers, hruntime⟩
  rcases tracks_operate hid htracks op with ⟨htracks', hnamed⟩
  rw [houtcome] at htracks' hnamed
  have hfollows := follows_operation hid hruntime hdelivers (by simp [hnode, houtcome])
  rw [hnode, houtcome] at hfollows
  refine ⟨_, _, hfollows, mirrors_put h ?_ (subset_install ..) ?_ ?_ ?_⟩
  · exact fun other hne => Cluster.install_nodes_of_ne _ _ _ hne
  · intro t1 ht1
    cases ht1
    refine ⟨Cluster.install_nodes_self .., ?_⟩
    refine tracks_resume (tracks_mono htracks' (subset_install ..)) hcalls ?_ hnext
    exact fun message hmessage =>
      ⟨List.mem_append_right _ hmessage, hnamed message hmessage⟩
  · intro hnone
    cases hnone
  · rw [Cluster.install_nodes_self]
    exact hterm

theorem mirrors_throws {op : Operation} {resume : Output -> Action} {fault : Raft.Fault}
    (h : Mirrors deployment s cluster) (hid : id ∈ deployment.members)
    (hup : (s.machines id).threads = some t)
    (hcalls : Calls (deployment.config id) t op resume)
    (houtcome : outcome op.perform (s.machines id).node = (.error fault, node))
    (hbounded : (s.put id ⟨node, none⟩).Bounded deployment) :
    exists cluster' event, Follows deployment cluster cluster' event ∧
      Mirrors deployment (s.put id ⟨node, none⟩) cluster' := by
  rcases h.up id hid t hup with ⟨hnode, htracks⟩
  rcases delivers_of_calls hid htracks hcalls with ⟨hdelivers, hruntime⟩
  have hbounds := hbounded id hid
  rw [System.put_machines_self] at hbounds
  have hput : forall {cluster' : Cluster storage random},
      (forall other, other ≠ id -> cluster'.nodes other = cluster.nodes other) ->
      cluster.network ⊆ cluster'.network ->
      ((cluster'.nodes id).storage = node.storage ∨
        forall rebuilt : RaftNode storage random,
          RaftNode.create (raftConfig (deployment.config id)) node.storage ≠ .ok rebuilt) ->
      (cluster'.nodes id).currentTerm ≠ 18446744073709551615 ->
      Mirrors deployment (s.put id ⟨node, none⟩) cluster' := by
    intro cluster' hothers hnetwork hstorage hterm
    refine mirrors_put h hothers hnetwork ?_ (fun _ => hstorage) hterm
    intro t1 ht1
    cases ht1
  by_cases hcause : exists cause, fault = .storage cause
  · rcases hcause with ⟨cause, rfl⟩
    cases hcreate : (RaftNode.create (raftConfig (deployment.config id)) node.storage :
        Except Raft.Fault (RaftNode storage random)) with
    | error fault =>
        refine ⟨cluster, none, rfl, hput (fun _ _ => rfl) (List.Subset.refl _) ?_
          (h.terms id hid)⟩
        right
        intro rebuilt hrebuilt
        rw [hcreate] at hrebuilt
        cases hrebuilt
    | ok rebuilt =>
        have hnext : cluster.next deployment.membership (.operation id op) =
            cluster.rebuild deployment.membership id node.storage := by
          simp only [Cluster.next]
          rw [if_pos ⟨hid, hdelivers⟩, hnode, houtcome]
        have hfresh := Raft.fresh_of_create hcreate
        refine ⟨_, _, follows_rebuild hruntime hnext hcreate, hput
          (fun other hne => Cluster.install_nodes_of_ne _ _ _ hne) (subset_install ..) ?_ ?_⟩
        · rw [Cluster.install_nodes_self]
          exact Or.inl hfresh.storage_eq
        · rw [Cluster.install_nodes_self]
          have hload := hfresh.mirrored
          unfold Raft.Mirrored at hload
          rw [hfresh.storage_eq] at hload
          exact hbounds.right _ hload
  · have hreturns : forall cause,
        (outcome op.perform (cluster.nodes id)).1 ≠ .error (.storage cause) := by
      intro cause heq
      rw [hnode, houtcome] at heq
      cases heq
      exact hcause ⟨cause, rfl⟩
    have hfollows := follows_operation hid hruntime hdelivers hreturns
    rw [hnode, houtcome] at hfollows
    refine ⟨_, _, hfollows, hput
      (fun other hne => Cluster.install_nodes_of_ne _ _ _ hne) (subset_install ..) ?_ ?_⟩
    · rw [Cluster.install_nodes_self]
      exact Or.inl rfl
    · rw [Cluster.install_nodes_self]
      exact hbounds.left

theorem mirrors_thread (h : Mirrors deployment s cluster) (hid : id ∈ deployment.members)
    (hup : (s.machines id).threads = some t)
    (htracks : Tracks deployment cluster.network id (s.machines id).node t') :
    Mirrors deployment (s.put id ⟨(s.machines id).node, some t'⟩) cluster := by
  refine mirrors_put h (fun _ _ => rfl) (List.Subset.refl _) ?_ ?_ (h.terms id hid)
  · intro t1 ht1
    cases ht1
    exact ⟨(h.up id hid t hup).left, htracks⟩
  · intro hnone
    cases hnone

theorem backed_conclude {message : Message} {number : Nat} {call : RaftCall}
    {reply : Rpc.Reply RaftAnswer} (hsender : call.sender = id)
    (hcall : ⟨id, message.toNode, call.toRpc⟩ ∈ network)
    (hreply : reply.status.code = .ok ->
      ⟨message.toNode, id, reply.response.toRpc⟩ ∈ network) :
    (Sending.conclude message number call reply).Backed network id := by
  unfold Sending.conclude
  split
  · rename_i hcode
    exact hreply hcode
  · split
    · exact ⟨hsender, hcall⟩
    · trivial

theorem backed_attempts {message : Message} {call : RaftCall} {number : Nat}
    {worker : Worker} (hid : id ∈ deployment.members)
    (hattempts : Attempts (deployment.config id) message call number worker)
    (hbacked : worker.Backed network id) :
    call.sender = id ∧ ⟨id, message.toNode, call.toRpc⟩ ∈ network := by
  cases hattempts with
  | again number => exact hbacked
  | first hprepare =>
      rcases prepare_some hprepare with ⟨hsender, hrpc, hrequest⟩
      rcases hbacked with ⟨hmessage, hnamed⟩
      rcases hnamed hrequest with ⟨hfrom, -⟩
      rw [deployment.nodeId_eq id hid] at hsender
      refine ⟨hsender, ?_⟩
      rw [hrpc, ← hfrom]
      exact hmessage

theorem mirrors_post {receiver : NodeId} {call : RaftCall}
    (h : Mirrors deployment s cluster)
    (hsent : ⟨call.sender, receiver, call.toRpc⟩ ∈ cluster.network) :
    Mirrors deployment (s.post receiver call) cluster where
  up := h.up
  down := h.down
  terms := h.terms
  replies := h.replies
  requests := by
    intro parcel hparcel
    rcases List.mem_append.mp hparcel with hold | hnew
    · exact h.requests parcel hold
    · rw [List.mem_singleton.mp hnew]
      exact hsent

theorem mirrors_served {index : Nat} {replies : List (Parcel × Rpc.Reply RaftAnswer)}
    (h : Mirrors deployment s cluster)
    (hreplies : forall parcel reply, (parcel, reply) ∈ replies ->
      (parcel, reply) ∈ s.replies ∨ (reply.status.code = .ok ->
        ⟨parcel.receiver, parcel.call.sender, reply.response.toRpc⟩ ∈ cluster.network)) :
    Mirrors deployment { s with
      requests := s.requests.eraseIdx index, replies := replies } cluster where
  up := h.up
  down := h.down
  terms := h.terms
  requests := fun parcel hparcel =>
    h.requests parcel (List.eraseIdx_subset hparcel)
  replies := by
    intro parcel reply hreply hcode
    rcases hreplies parcel reply hreply with hold | hnew
    · exact h.replies parcel reply hold hcode
    · exact hnew hcode

theorem exists_handled {parcel : Parcel} {context : Rpc.ServerContext}
    {r : Except Rpc.Fault (Rpc.Reply RaftAnswer)}
    (h : Mirrors deployment s cluster) (hid : parcel.receiver ∈ deployment.members)
    (hup : (s.machines parcel.receiver).threads = some t)
    (hsent : parcel.message ∈ cluster.network)
    (hsaves : context.cancelledBefore = false -> forall cause,
      (outcome (RaftNode.handleRequest parcel.message)
        (s.machines parcel.receiver).node).1 ≠ .error (.storage cause))
    (hhandles : Handles context parcel.call (s.machines parcel.receiver).node r node) :
    exists cluster' event, Follows deployment cluster cluster' event ∧
      (forall other, other ≠ parcel.receiver ->
        cluster'.nodes other = cluster.nodes other) ∧
      cluster.network ⊆ cluster'.network ∧ cluster'.nodes parcel.receiver = node ∧
      Tracks deployment cluster'.network parcel.receiver node t ∧
      forall reply, r = .ok reply -> reply.status.code = .ok ->
        ⟨parcel.receiver, parcel.call.sender, reply.response.toRpc⟩ ∈
          cluster'.network := by
  rcases h.up _ hid t hup with ⟨hnode, htracks⟩
  have hnodeId : (s.machines parcel.receiver).node.config.nodeId = parcel.receiver := by
    rw [htracks.config]
    exact deployment.nodeId_eq _ hid
  rcases hhandles with ⟨rfl, hcode⟩ | ⟨hstarts, hnode', hreply⟩
  · refine ⟨cluster, none, rfl, fun _ _ => rfl, List.Subset.refl _, hnode, htracks, ?_⟩
    intro reply hr hok
    exact absurd hok (hcode reply hr)
  · rw [hnodeId] at hnode' hreply
    have hdelivers : cluster.delivers (parcel.call.delivery parcel.receiver) := by
      unfold Parcel.message at hsent
      unfold Cluster.delivers RaftCall.delivery Operation.inbox
      simpa using hsent
    have hreturns : forall cause, (outcome
        (parcel.call.delivery parcel.receiver).perform
          (cluster.nodes parcel.receiver)).1 ≠ .error (.storage cause) := by
      intro cause heq
      unfold RaftCall.delivery at heq
      rw [hnode, outcome_delivery] at heq
      cases hresult : (outcome (RaftNode.handleRequest parcel.message)
          (s.machines parcel.receiver).node).1 with
      | ok answer =>
          unfold Parcel.message at hresult
          rw [hresult] at heq
          cases heq
      | error fault =>
          have hsaves' := hsaves hstarts cause
          rw [hresult] at hsaves'
          unfold Parcel.message at hresult
          rw [hresult] at heq
          cases heq
          exact hsaves' rfl
    have hruntime : OfRuntime (.operation parcel.receiver
        (parcel.call.delivery parcel.receiver)) := trivial
    have hfollows := follows_operation hid hruntime hdelivers hreturns
    rcases tracks_operate hid htracks (parcel.call.delivery parcel.receiver) with
      ⟨htracks', -⟩
    rw [hnode, ← hnode'] at hfollows
    rw [← hnode'] at htracks'
    refine ⟨_, _, hfollows, fun other hne => Cluster.install_nodes_of_ne _ _ _ hne,
      subset_install .., Cluster.install_nodes_self ..,
      tracks_mono htracks' (subset_install ..), ?_⟩
    exact fun reply hr hok => List.mem_append_right _ (hreply reply hr hok)

theorem mirrors_serves {index : Nat} {parcel : Parcel} {context : Rpc.ServerContext}
    (h : Mirrors deployment s cluster) (hparcel : s.requests[index]? = some parcel)
    (hid : parcel.receiver ∈ deployment.members)
    (hup : (s.machines parcel.receiver).threads = some t)
    (hsaves : s.HandlerSaves (.serve index context))
    (hbounded : (s.serveParcel index parcel context t).Bounded deployment) :
    exists cluster' event, Follows deployment cluster cluster' event ∧
      Mirrors deployment (s.serveParcel index parcel context t) cluster' := by
  have hhandles := ensures_handle_call context parcel.call
    (s.machines parcel.receiver).node
  have hbounds := hbounded _ hid
  unfold System.serveParcel at hbounds ⊢
  unfold Ensures at hhandles
  rcases houtcome : outcome (parcel.call.handle context)
    (s.machines parcel.receiver).node with ⟨r, node⟩
  rw [houtcome] at hhandles hbounds
  rcases exists_handled h hid hup (h.requests parcel (List.mem_of_getElem? hparcel))
    (fun hstarts => hsaves hstarts parcel hparcel) hhandles with
    ⟨cluster', event, hfollows, hothers, hnetwork, hnode, htracks, hreply⟩
  refine ⟨cluster', event, hfollows, ?_⟩
  cases r with
  | ok reply =>
      have hterm : node.currentTerm ≠ 18446744073709551615 := by
        have hbound := hbounds.left
        simpa [System.put] using hbound
      have hput : Mirrors deployment (s.put parcel.receiver ⟨node, some t⟩) cluster' := by
        refine mirrors_put h hothers hnetwork ?_ ?_ ?_
        · intro t1 ht1
          cases ht1
          exact ⟨hnode, htracks⟩
        · intro hnone
          cases hnone
        · rw [hnode]
          exact hterm
      refine mirrors_served hput ?_
      intro other answer hmem
      rcases List.mem_append.mp hmem with hold | hnew
      · exact Or.inl hold
      · cases List.mem_singleton.mp hnew
        exact Or.inr (hreply reply rfl)
  | error fault =>
      have hterm : node.currentTerm ≠ 18446744073709551615 := by
        have hbound := hbounds.left
        simpa [System.put] using hbound
      have hput : Mirrors deployment (s.put parcel.receiver ⟨node, none⟩) cluster' := by
        refine mirrors_put h hothers hnetwork ?_ ?_ ?_
        · intro t1 ht1
          cases ht1
        · intro _
          left
          rw [hnode]
        · rw [hnode]
          exact hterm
      exact mirrors_served hput fun other answer hmem => Or.inl hmem

/-- Every deed is an event of the cluster, or leaves the cluster as it is. -/
theorem mirrors_happens {deed : Deed} (h : Mirrors deployment s cluster)
    (hhappens : s.Happens deployment deed s') (hsaves : s.HandlerSaves deed)
    (hbounded : s'.Bounded deployment) :
    exists cluster' event, Follows deployment cluster cluster' event ∧
      Mirrors deployment s' cluster' := by
  have hstays : Mirrors deployment s' cluster ->
      exists cluster' event, Follows deployment cluster cluster' event ∧
        Mirrors deployment s' cluster' :=
    fun hmirrors => ⟨cluster, none, rfl, hmirrors⟩
  cases hhappens with
  | acts hid hup hinternal hnext =>
      exact hstays (mirrors_thread h hid hup
        (tracks_internal (h.up _ hid _ hup).right hinternal hnext))
  | @operates _ id t t' op resume output node hid hup hcalls houtcome hnext =>
      have hbounds := hbounded id hid
      rw [System.put_machines_self] at hbounds
      exact mirrors_operates h hid hup hcalls houtcome hnext hbounds.left
  | throws hid hup hcalls houtcome =>
      exact mirrors_throws h hid hup hcalls houtcome hbounded
  | @refuses id t i message fault hid hup hworker hprepare =>
      -- A process never refuses the messages of its own node.
      have hbacked := (h.up id hid t hup).right.workers _ (List.mem_of_getElem? hworker)
      have hnamed : Named (deployment.config id).nodeId message := by
        rw [deployment.nodeId_eq id hid]
        exact hbacked.right
      exact absurd hprepare (prepare_ne_error hnamed fault)
  | skips hid hup hworker hprepare =>
      exact hstays (mirrors_thread h hid hup
        (tracks_put (h.up _ hid _ hup).right hworker (by simp) trivial))
  | @posts id t i message call worker number hid hup hworker hattempts =>
      have htracks := (h.up id hid t hup).right
      rcases backed_attempts hid hattempts
        (htracks.workers _ (List.mem_of_getElem? hworker)) with ⟨hsender, hsent⟩
      have hne : worker ≠ .returned := by
        cases hattempts <;> simp
      refine hstays (mirrors_post (mirrors_thread h hid hup
        (tracks_put htracks hworker hne ⟨hsender, hsent⟩)) ?_)
      rw [hsender]
      exact hsent
  | serves hparcel hid hup hserving =>
      exact mirrors_serves h hparcel hid hup hsaves hbounded
  | @answers id t i index message number ticket call reply hid hup hworker hreply =>
      have htracks := (h.up id hid t hup).right
      rcases htracks.workers _ (List.mem_of_getElem? hworker) with ⟨hsender, hsent⟩
      refine hstays (mirrors_thread h hid hup (tracks_put htracks hworker (by simp)
        (backed_conclude hsender hsent ?_)))
      intro hcode
      have hanswer := h.replies _ _ (List.mem_of_getElem? hreply) hcode
      rw [hsender] at hanswer
      exact hanswer
  | @givesUp id t i status message number ticket call hid hup hcode hworker =>
      have htracks := (h.up id hid t hup).right
      rcases htracks.workers _ (List.mem_of_getElem? hworker) with ⟨hsender, hsent⟩
      refine hstays (mirrors_thread h hid hup (tracks_put htracks hworker (by simp)
        (backed_conclude hsender hsent ?_)))
      exact fun hok => absurd hok hcode
  | @dies id hid =>
      refine hstays (mirrors_put h (fun _ _ => rfl) (List.Subset.refl _) ?_ ?_
        (h.terms id hid))
      · intro t ht
        cases ht
      · intro _
        cases hthreads : (s.machines id).threads with
        | none => exact h.down id hid hthreads
        | some t =>
            left
            rw [(h.up id hid t hthreads).left]
  | @restarts id node hid hdown hcreate =>
      rcases h.down id hid hdown with hstorage | hnone
      · have hbounds := hbounded id hid
        rw [System.put_machines_self] at hbounds
        have hnext : cluster.next deployment.membership (.restart id) =
            cluster.rebuild deployment.membership id (s.machines id).node.storage := by
          rw [← hstorage]
          exact if_pos hid
        have hruntime : OfRuntime (.restart id) := trivial
        refine ⟨_, _, follows_rebuild hruntime hnext hcreate, mirrors_put h
          (fun other hne => Cluster.install_nodes_of_ne _ _ _ hne) (subset_install ..)
          ?_ ?_ ?_⟩
        · intro t ht
          cases ht
          exact ⟨Cluster.install_nodes_self .., tracks_new hcreate⟩
        · intro hnone
          cases hnone
        · rw [Cluster.install_nodes_self]
          exact hbounds.left
      · exact absurd hcreate (hnone node)

/-!
# Whole runs
-/

theorem mirrors_starts (h : s.Starts deployment)
    (hbounded : s.Bounded deployment) :
    exists cluster : Cluster storage random,
      cluster.Starts deployment.membership ∧ Mirrors deployment s cluster := by
  refine ⟨⟨fun id => (s.machines id).node, []⟩, ⟨rfl, ?_⟩, ?_, ?_, ?_, ?_, ?_⟩
  · exact fun id hid => (h.machines id hid).right
  · intro id hid t ht
    rcases h.machines id hid with ⟨hthreads, store, -, hcreate⟩
    rw [hthreads] at ht
    cases ht
    exact ⟨rfl, tracks_new hcreate⟩
  · exact fun id hid _ => Or.inl rfl
  · exact fun id hid => (hbounded id hid).left
  · rw [h.requests]
    intro parcel hparcel
    cases hparcel
  · rw [h.replies]
    intro parcel reply hreply
    cases hreply

end Mirrors

section Runs

variable {storage random : Type} [RaftStorage storage] [RandomEngine random]
  {deployment : Deployment}

variable {run : Operating storage random deployment}

theorem mirrors_succ (hregular : run.Regular) {k : Nat}
    {cluster : Cluster storage random}
    (h : Mirrors deployment (run.states k) cluster) :
    exists cluster' event, Follows deployment cluster cluster' event ∧
      Mirrors deployment (run.states (k + 1)) cluster' := by
  have hnext := run.next k
  cases hdeed : run.deeds k with
  | none =>
      rw [hdeed] at hnext
      rw [hnext]
      exact ⟨cluster, none, rfl, h⟩
  | some deed =>
      rw [hdeed] at hnext
      exact mirrors_happens h (System.happens_of_next hnext)
        (hregular.saves k deed hdeed) (hregular.bounded (k + 1))

theorem exists_clusters (hregular : run.Regular) :
    exists (clusters : Nat -> Cluster storage random) (events : Nat -> Option Event),
      (clusters 0).Starts deployment.membership ∧
      (forall k, Mirrors deployment (run.states k) (clusters k)) ∧
      forall k, Follows deployment (clusters k) (clusters (k + 1)) (events k) := by
  rcases mirrors_starts run.starts (hregular.bounded 0) with ⟨first, hstarts, hfirst⟩
  have hsucc : forall k (cluster : Cluster storage random),
      Mirrors deployment (run.states k) cluster -> exists cluster' event,
        Follows deployment cluster cluster' event ∧
          Mirrors deployment (run.states (k + 1)) cluster' :=
    fun _ _ hmirrors => mirrors_succ hregular hmirrors
  choose! after event hfollows hafter using hsucc
  let clusters : Nat -> Cluster storage random := fun k => Nat.rec first after k
  have hmirrors : forall k, Mirrors deployment (run.states k) (clusters k) := by
    intro k
    induction k with
    | zero => exact hfirst
    | succ k ih => exact hafter k _ ih
  exact ⟨clusters, fun k => event k (clusters k), hstarts, hmirrors,
    fun k => hfollows k _ (hmirrors k)⟩

/-- The run of the cluster that a run of the processes is. -/
theorem exists_execution (hregular : run.Regular) :
    exists (execution : Execution storage random deployment.membership)
      (schedule : Raft.Schedule execution),
      (forall k, Mirrors deployment (run.states k) (execution.states k)) ∧
      forall k event, schedule.event k = some event -> OfRuntime event := by
  rcases exists_clusters hregular with ⟨clusters, events, hstarts, hmirrors, hfollows⟩
  have hperforms : forall k, match events k with
      | none => clusters (k + 1) = clusters k
      | some event => (clusters k).next deployment.membership event =
          some (clusters (k + 1)) := by
    intro k
    have hstep := hfollows k
    cases hevent : events k with
    | none =>
        rw [hevent] at hstep
        exact hstep
    | some event =>
        rw [hevent] at hstep
        exact hstep.right
  have hnext : forall k, clusters (k + 1) = clusters k ∨ exists event,
      (clusters k).next deployment.membership event = some (clusters (k + 1)) := by
    intro k
    have hstep := hperforms k
    cases hevent : events k with
    | none =>
        rw [hevent] at hstep
        exact Or.inl hstep
    | some event =>
        rw [hevent] at hstep
        exact Or.inr ⟨event, hstep⟩
  refine ⟨⟨clusters, hstarts, hnext, fun k id hid => (hmirrors k).terms id hid⟩,
    ⟨events, hperforms⟩, hmirrors, ?_⟩
  intro k event hevent
  have hstep := hfollows k
  have hsome : events k = some event := hevent
  rw [hsome] at hstep
  exact hstep.left

theorem node_eq {cluster : Cluster storage random} {k : Nat} {id : NodeId}
    (h : Mirrors deployment (run.states k) cluster) (hup : run.Up k id) :
    cluster.nodes id = run.node k id := by
  rcases Option.ne_none_iff_exists'.mp hup.right with ⟨t, ht⟩
  exact (h.up id hup.left t ht).left

/--
The deployed processes are a cluster.  Whatever their threads, the calls between
them and their crashes do, the nodes of the processes that are up are those of a
run of the cluster, whose events deliver only messages that were sent, propose
nothing and take no committed entries.
-/
theorem deployment_refines_cluster (run : Operating storage random deployment)
    (hregular : run.Regular) :
    exists (execution : Execution storage random deployment.membership)
      (schedule : Raft.Schedule execution),
      (forall k id, run.Up k id -> (execution.states k).nodes id = run.node k id) ∧
      forall k event, schedule.event k = some event -> OfRuntime event := by
  rcases exists_execution hregular with ⟨execution, schedule, hmirrors, hruntime⟩
  exact ⟨execution, schedule, fun k id hup => node_eq (hmirrors k) hup, hruntime⟩

theorem deployment_refines_cluster_electing :
    exists execution : Execution Raft.InMemoryRaftStorage Raft.LeastEngine
        twoProcesses.membership,
      ((execution.states 19).nodes 1).state = .leader := by
  rcases deployment_refines_cluster electing regular_electing with
    ⟨execution, -, hnodes, -⟩
  refine ⟨execution, ?_⟩
  rw [hnodes 19 1 (up_electing (Or.inl rfl))]
  decide +kernel

/-!
# What the processes agree on
-/

section Lawful

variable [Raft.LawfulRaftStorage storage]

/--
Over the whole run, no term has leaders in two processes, and what two processes
have committed, at the same or at different times, agrees.
-/
theorem deployed_processes_agree (run : Operating storage random deployment)
    (hregular : run.Regular) {a b : NodeId} {j k : Nat} (ha : run.Up j a)
    (hb : run.Up k b) :
    ((run.node j a).state = .leader -> (run.node k b).state = .leader ->
      (run.node j a).currentTerm = (run.node k b).currentTerm -> a = b) ∧
    forall index, index <= (run.node j a).commitIndex ->
      index <= (run.node k b).commitIndex ->
        (run.node j a).log.at? index = (run.node k b).log.at? index := by
  rcases exists_execution hregular with ⟨execution, -, hmirrors, -⟩
  rw [← node_eq (hmirrors j) ha, ← node_eq (hmirrors k) hb]
  constructor
  · intro hleads hleads' hterm
    rcases Raft.exists_shadow execution with ⟨shadow⟩
    have hwinner := (shadow.evolves (le_max_left j k)).winner _ _
      (shadow.leader ha.left hleads).left
    have hwinner' := (shadow.evolves (le_max_right j k)).winner _ _
      (shadow.leader hb.left hleads').left
    rw [hterm, hwinner'] at hwinner
    exact (Option.some.inj hwinner).symm
  · exact fun index hindex hindex' =>
      Raft.committed_agree execution ha.left hb.left hindex hindex'

theorem deployed_processes_agree_electing :
    (electing.node 19 1).state = .leader ∧
      forall index, index <= (electing.node 19 1).commitIndex ->
        index <= (electing.node 19 2).commitIndex ->
          (electing.node 19 1).log.at? index = (electing.node 19 2).log.at? index :=
  ⟨by decide +kernel, (deployed_processes_agree electing regular_electing
    (up_electing (Or.inl rfl)) (up_electing (Or.inr rfl))).right⟩

/--
The logs of the deployed processes hold nothing but the entries with which their
leaders open a term, and no process ever publishes a command: the runtime calls
neither `propose` nor `take_committed_entries`.
-/
theorem deployed_logs_hold_no_commands (run : Operating storage random deployment)
    (hregular : run.Regular) {k : Nat} {id : NodeId} (hup : run.Up k id) :
    (forall entry, entry ∈ (run.node k id).log.entries -> entry.isNoOp = true) ∧
      (run.node k id).committedEntries = [] := by
  rcases exists_execution hregular with ⟨execution, schedule, hmirrors, hruntime⟩
  rcases Raft.exists_shadow execution with ⟨shadow⟩
  have haccounted := Raft.accounted_run shadow schedule k id hup.left
  have hwell := (shadow.represents k hup.left).well
  rw [node_eq (hmirrors k) hup] at haccounted hwell
  have hentries : forall entry, entry ∈ (run.node k id).log.entries ->
      entry.isNoOp = true := by
    intro entry hentry
    rcases List.mem_iff_getElem?.mp hentry with ⟨position, hposition⟩
    by_contra hcommand
    rcases haccounted.commands position entry hposition
      (Bool.eq_false_iff.mpr hcommand) with ⟨j, leader, -, hproposed⟩
    exact hruntime j _ hproposed.called
  refine ⟨hentries, List.eq_nil_iff_forall_not_mem.mpr ?_⟩
  intro published hpublished
  rcases Raft.at?_of_published hwell hpublished with
    ⟨hpos, -, entry, hentry, hcommand, -⟩
  obtain ⟨position, hposition⟩ := Nat.exists_eq_succ_of_ne_zero (Nat.ne_of_gt hpos)
  rw [hposition, Raft.Log.at?_succ] at hentry
  rw [hentries entry (List.mem_of_getElem? hentry)] at hcommand
  cases hcommand

theorem deployed_logs_hold_no_commands_electing :
    (electing.node 19 1).log.entries.length = 1 ∧
      forall entry, entry ∈ (electing.node 19 1).log.entries -> entry.isNoOp = true :=
  ⟨by decide +kernel, (deployed_logs_hold_no_commands electing regular_electing
    (up_electing (Or.inl rfl))).left⟩

end Lawful

end Runs

end Node
end FTKV
