import FTKV.Cluster.Runs
import FTKV.Node.DurableRaftStorage
import FTKV.Storage.SharedDisk

/-!
# Clusters on disks

A host is the process of one member together with its disk.  The process keeps two
snapshots in its data directory: one of the Raft state and one of the key-value
store that it serves.

## Processes that end

At every call that changes the file system the disk decides whether the call
succeeds, fails, or is the last one before the process is killed; reads succeed.  A
process that was killed is started again on the files as they are at that moment, and
what the interrupted operation would have sent is lost.  Nothing is said about a
machine that loses power: a save never asks for its bytes to be written back.

`RaftNode::tick` and `RaftNode::step` are called by the threads of the runtime, where
nothing catches an exception: the process ends and is started again.  An exception in
a handler becomes the status of the call, and the process goes on with the node as the
exception has left it.
-/

namespace FTKV
namespace Node

open Foundation
open Foundation.Effect
open Raft
open Storage (CrashDisk Fate FilePersistence KvStore OpenStore Path)

/-!
# The data directory
-/

/-- `path::operator/` for a file name. -/
def joinPath (directory name : Path) : Path :=
  if directory = "" ∨ directory.toList.getLast? = some '/' then
    directory ++ name
  else
    directory ++ "/" ++ name

theorem joinPath_eq (directory : Path) :
    exists lead : List Char, forall name,
      (joinPath directory name).toList = lead ++ name.toList := by
  unfold joinPath
  split
  · exists directory.toList
    intro name
    exact String.toList_append
  · exists directory.toList ++ "/".toList
    intro name
    rw [String.toList_append, String.toList_append]

theorem joinPath_append (directory name ending : Path) :
    joinPath directory name ++ ending = joinPath directory (name ++ ending) := by
  unfold joinPath
  split
  · exact String.append_assoc
  · exact String.append_assoc

theorem joinPath_inj {directory name other : Path}
    (h : joinPath directory name = joinPath directory other) : name = other := by
  rcases joinPath_eq directory with ⟨lead, hlead⟩
  have hlists := congrArg String.toList h
  rw [hlead, hlead] at hlists
  exact String.toList_inj.mp (List.append_cancel_left hlists)

theorem joinPath_ne_empty {directory name : Path} (hname : name ≠ "") :
    joinPath directory name ≠ "" := by
  intro hempty
  rcases joinPath_eq directory with ⟨lead, hlead⟩
  have hlist := hlead name
  rw [hempty] at hlist
  apply hname
  exact String.toList_inj.mp (List.append_eq_nil_iff.mp hlist.symm).right

def raftFile (directory : Path) : FilePersistence :=
  ⟨joinPath directory "raft.snapshot", joinPath_ne_empty (by decide)⟩

def keyValueFile (directory : Path) : FilePersistence :=
  ⟨joinPath directory "kv.snapshot", joinPath_ne_empty (by decide)⟩

theorem create_raftFile (directory : Path) :
    FilePersistence.create (joinPath directory "raft.snapshot") =
      .ok (raftFile directory) :=
  dif_neg (raftFile directory).hasPath

theorem create_keyValueFile (directory : Path) :
    FilePersistence.create (joinPath directory "kv.snapshot") =
      .ok (keyValueFile directory) :=
  dif_neg (keyValueFile directory).hasPath

theorem raftFile_spared (directory : Path) :
    (raftFile directory).filePath ≠ (keyValueFile directory).filePath ∧
      (raftFile directory).filePath ≠ (keyValueFile directory).temporaryPath := by
  constructor
  · intro hsame
    exact absurd (joinPath_inj hsame) (by decide)
  · intro hsame
    have hjoined : joinPath directory "raft.snapshot" =
        joinPath directory ("kv.snapshot" ++ ".tmp") :=
      hsame.trans (joinPath_append ..)
    exact absurd (joinPath_inj hjoined) (by decide)

theorem keyValueFile_spared (directory : Path) :
    (keyValueFile directory).filePath ≠ (raftFile directory).filePath ∧
      (keyValueFile directory).filePath ≠ (raftFile directory).temporaryPath := by
  constructor
  · exact (raftFile_spared directory).left.symm
  · intro hsame
    have hjoined : joinPath directory "kv.snapshot" =
        joinPath directory ("raft.snapshot" ++ ".tmp") :=
      hsame.trans (joinPath_append ..)
    exact absurd (joinPath_inj hjoined) (by decide)

/-!
# Hosts
-/

/-- The process of a member; both stores work on the disk of the Raft storage. -/
structure Host (random : Type) where
  node : RaftNode (DurableRaftStorage CrashDisk) random
  keyValueStore : KvStore FilePersistence

namespace Host

variable {random : Type}

def disk (host : Host random) : CrashDisk :=
  host.node.storage.opened.disk

def mount (node : RaftNode (DurableRaftStorage CrashDisk) random)
    (d : CrashDisk) : RaftNode (DurableRaftStorage CrashDisk) random :=
  { node with storage := { opened := { node.storage.opened with disk := d } } }

def meets (host : Host random) (fates : List Fate) : Host random :=
  { host with node := mount host.node { host.disk with script := fates } }

def opened (host : Host random) : OpenStore FilePersistence CrashDisk where
  store := host.keyValueStore
  disk := host.disk

variable [Storage.IterationOrder CrashDisk]

def serve (request : Storage.Request) (host : Host random) :
    Except Storage.Fault Storage.Reply × Host random :=
  match outcome (OpenStore.perform request) host.opened with
  | (r, s) => (r, ⟨mount host.node s.disk, s.store⟩)

variable [RandomEngine random]

def start (config : RaftConfig) (directory : Path) (d : CrashDisk) :
    Option (Host random) :=
  match DurableRaftStorage.create (joinPath directory "raft.snapshot") d with
  | .error _ => none
  | .ok storage =>
      match RaftNode.create config storage with
      | .error _ => none
      | .ok node =>
          match FilePersistence.create (joinPath directory "kv.snapshot") with
          | .error _ => none
          | .ok file =>
              match outcome (KvStore.create (some file))
                node.storage.opened.disk with
              | (.ok store, d') => some ⟨mount node d', store⟩
              | (.error _, _) => none

def operate (op : Operation) (host : Host random) :
    Except Fault Output × Host random :=
  match outcome op.perform host.node with
  | (r, node) => (r, { host with node := node })

end Host

/-!
# Clusters
-/

structure HostCluster (random : Type) where
  hosts : NodeId -> Host random
  network : List Message

/-- What happens, and what becomes of the calls of the file system meanwhile. -/
inductive HostEvent where
  | operation (id : NodeId) (op : Operation) (fates : List Fate)
  | request (id : NodeId) (request : Storage.Request) (fates : List Fate)
  | restart (id : NodeId)
deriving DecidableEq, Repr

/-- The exception of the operation leaves a thread of the runtime. -/
def endsProcess : Operation -> Except Fault Output -> Bool
  | .tick _, .error _ => true
  | .step _, .error _ => true
  | _, _ => false

def storageThrew : Except Fault Output -> Bool
  | .error (.storage _) => true
  | _ => false

theorem storageThrew_eq_false {r : Except Fault Output} (h : storageThrew r = false)
    (cause : StorageFault) : r ≠ .error (.storage cause) := by
  intro hr
  rw [hr] at h
  cases h

namespace HostCluster

variable {random : Type}

def cluster (c : HostCluster random) :
    Cluster (DurableRaftStorage CrashDisk) random where
  nodes id := (c.hosts id).node
  network := c.network

def install (c : HostCluster random) (id : NodeId) (host : Host random)
    (sent : List Message) : HostCluster random where
  hosts := Function.update c.hosts id host
  network := c.network ++ sent

@[simp] theorem install_hosts_self (c : HostCluster random) (id : NodeId)
    (host : Host random) (sent : List Message) :
    (c.install id host sent).hosts id = host :=
  Function.update_self ..

theorem install_hosts_of_ne (c : HostCluster random) {id other : NodeId}
    (host : Host random) (sent : List Message) (hne : other ≠ id) :
    (c.install id host sent).hosts other = c.hosts other :=
  Function.update_of_ne hne ..

theorem forall_install {c : HostCluster random} {id : NodeId} {host : Host random}
    {members : Finset NodeId} {p : NodeId -> Host random -> Prop} (sent : List Message)
    (h : forall other, other ∈ members -> p other (c.hosts other)) (hhost : p id host) :
    forall other, other ∈ members -> p other ((c.install id host sent).hosts other) := by
  intro other hother
  by_cases heq : other = id
  · rw [heq, install_hosts_self]
    exact hhost
  · rw [install_hosts_of_ne c host sent heq]
    exact h other hother

theorem cluster_install (c : HostCluster random) (id : NodeId)
    (host : Host random) (sent : List Message) :
    (c.install id host sent).cluster = c.cluster.install id host.node sent := by
  have hnodes : (fun other => ((c.install id host sent).hosts other).node) =
      Function.update c.cluster.nodes id host.node := by
    funext other
    by_cases hother : other = id
    · rw [hother, install_hosts_self, Function.update_self]
    · rw [install_hosts_of_ne c host sent hother, Function.update_of_ne hother]
      rfl
  exact congrArg (fun nodes => Cluster.mk nodes (c.network ++ sent)) hnodes

variable [Storage.IterationOrder CrashDisk] [RandomEngine random]

def reboot (membership : Membership) (directory : NodeId -> Path)
    (c : HostCluster random) (id : NodeId) (host : Host random) :
    Option (HostCluster random) :=
  match Host.start (membership.config id) (directory id) host.disk.restart with
  | some fresh => some (c.install id fresh [])
  | none => none

def next (membership : Membership) (directory : NodeId -> Path)
    (c : HostCluster random) : HostEvent -> Option (HostCluster random)
  | .operation id op fates =>
      if id ∈ membership.members ∧ c.cluster.delivers op then
        match ((c.hosts id).meets fates).operate op with
        | (r, host) =>
            if host.disk.crashed ∨ endsProcess op r then
              c.reboot membership directory id host
            else
              some (c.install id host (outputOf r).messages)
      else
        none
  | .request id request fates =>
      if id ∈ membership.members ∧ request ≠ .reopen then
        match ((c.hosts id).meets fates).serve request with
        | (_, host) =>
            if host.disk.crashed then
              c.reboot membership directory id host
            else
              some (c.install id host [])
      else
        none
  | .restart id =>
      if id ∈ membership.members then
        c.reboot membership directory id (c.hosts id)
      else
        none

/-- No save of the Raft state fails in a process that goes on. -/
def saves (c : HostCluster random) : HostEvent -> Bool
  | .operation id op fates =>
      match ((c.hosts id).meets fates).operate op with
      | (r, host) => host.disk.crashed || endsProcess op r || !storageThrew r
  | _ => true

theorem saves_operation (c : HostCluster random) (id : NodeId) (op : Operation)
    (fates : List Fate) :
    c.saves (.operation id op fates) =
      ((((c.hosts id).meets fates).operate op).2.disk.crashed ||
        endsProcess op (((c.hosts id).meets fates).operate op).1 ||
        !storageThrew (((c.hosts id).meets fates).operate op).1) :=
  rfl

def reply (c : HostCluster random) : HostEvent -> Option Storage.Reply
  | .request id request fates =>
      match ((c.hosts id).meets fates).serve request with
      | (.ok reply, host) => if host.disk.crashed then none else some reply
      | (.error _, _) => none
  | _ => none

structure Starts (membership : Membership) (directory : NodeId -> Path)
    (c : HostCluster random) : Prop where
  network : c.network = []
  hosts : forall id, id ∈ membership.members -> exists d : CrashDisk,
    d.files (raftFile (directory id)).filePath = none ∧
      Host.start (membership.config id) (directory id) d = some (c.hosts id)

end HostCluster

structure Hosting (random : Type) [Storage.IterationOrder CrashDisk]
    [RandomEngine random] (membership : Membership)
    (directory : NodeId -> Path) where
  states : Nat -> HostCluster random
  events : Nat -> Option HostEvent
  starts : (states 0).Starts membership directory
  next : forall k,
    match events k with
    | none => states (k + 1) = states k
    | some event =>
        (states k).next membership directory event = some (states (k + 1))

/--
No process goes on after a save of its Raft state has failed, and no member reaches
the greatest term.
-/
structure Hosting.Regular {random : Type} [Storage.IterationOrder CrashDisk]
    [RandomEngine random] {membership : Membership} {directory : NodeId -> Path}
    (run : Hosting random membership directory) : Prop where
  saves : forall k event, run.events k = some event ->
    (run.states k).saves event = true
  terms : forall k id, id ∈ membership.members ->
    ((run.states k).hosts id).node.currentTerm ≠ 18446744073709551615

/-!
# Runs from lists of events
-/

namespace HostCluster

variable {random : Type} [Storage.IterationOrder CrashDisk] [RandomEngine random]
  {membership : Membership} {directory : NodeId -> Path}

def trace (membership : Membership) (directory : NodeId -> Path)
    (c : HostCluster random) (events : List HostEvent) : Nat -> HostCluster random
  | 0 => c
  | k + 1 =>
      match events[k]? with
      | some event =>
          ((c.trace membership directory events k).next membership directory
            event).getD (c.trace membership directory events k)
      | none => c.trace membership directory events k

def performs (membership : Membership) (directory : NodeId -> Path)
    (check : HostCluster random -> Option HostEvent -> Bool) (c : HostCluster random) :
    List HostEvent -> Bool
  | [] => check c none
  | event :: rest =>
      check c (some event) &&
        match c.next membership directory event with
        | some c' => c'.performs membership directory check rest
        | none => false

def regular (ids : List NodeId) (c : HostCluster random) (event : Option HostEvent) :
    Bool :=
  (ids.all fun id => (c.hosts id).node.currentTerm != 18446744073709551615) &&
    event.all c.saves

theorem trace_cons {c c' : HostCluster random} {event : HostEvent}
    {rest : List HostEvent} (hnext : c.next membership directory event = some c')
    (k : Nat) : c.trace membership directory (event :: rest) (k + 1) =
      c'.trace membership directory rest k := by
  induction k with
  | zero => simp [trace, hnext]
  | succ k ih =>
      rw [trace, ih]
      rfl

theorem trace_of_performs {check : HostCluster random -> Option HostEvent -> Bool}
    {c : HostCluster random} {events : List HostEvent}
    (h : c.performs membership directory check events = true) (k : Nat) :
    check (c.trace membership directory events k) events[k]? = true ∧
      forall event, events[k]? = some event ->
        (c.trace membership directory events k).next membership directory event =
          some (c.trace membership directory events (k + 1)) := by
  induction events generalizing c k with
  | nil =>
      have hsame : forall k, c.trace membership directory [] k = c := by
        intro k
        induction k with
        | zero => rfl
        | succ k ih => exact ih
      rw [hsame]
      constructor
      · exact h
      · intro event hevent
        cases hevent
  | cons event rest ih =>
      unfold performs at h
      rcases Bool.and_eq_true_iff.mp h with ⟨hcheck, hrest⟩
      cases hnext : c.next membership directory event with
      | none =>
          rw [hnext] at hrest
          cases hrest
      | some c' =>
          rw [hnext] at hrest
          cases k with
          | zero =>
              constructor
              · exact hcheck
              · intro event' hevent
                cases hevent
                rw [trace_cons hnext 0]
                exact hnext
          | succ k =>
              rw [trace_cons hnext, trace_cons hnext]
              exact ih hrest k

end HostCluster

section Listed

variable {random : Type} [Storage.IterationOrder CrashDisk] [RandomEngine random]
  {membership : Membership} {directory : NodeId -> Path}

def Hosting.ofEvents (membership : Membership) (directory : NodeId -> Path)
    (check : HostCluster random -> Option HostEvent -> Bool) (c : HostCluster random)
    (events : List HostEvent) (hstarts : c.Starts membership directory)
    (hperforms : c.performs membership directory check events = true) :
    Hosting random membership directory where
  states := c.trace membership directory events
  events := fun k => events[k]?
  starts := hstarts
  next := by
    intro k
    cases hevent : events[k]? with
    | none =>
        show c.trace membership directory events (k + 1) = _
        rw [HostCluster.trace]
        simp only [hevent]
    | some event =>
        exact (HostCluster.trace_of_performs hperforms k).right event hevent

theorem regular_ofEvents {ids : List NodeId} {c : HostCluster random}
    {events : List HostEvent} {hstarts : c.Starts membership directory}
    {hperforms : c.performs membership directory (HostCluster.regular ids) events = true}
    (hids : forall id, id ∈ membership.members -> id ∈ ids) :
    (Hosting.ofEvents membership directory (HostCluster.regular ids) c events hstarts
      hperforms).Regular := by
  have hcheck : forall k, _ :=
    fun k => Bool.and_eq_true_iff.mp (HostCluster.trace_of_performs hperforms k).left
  constructor
  · intro k event hevent
    have hsaves := (hcheck k).right
    rw [show events[k]? = some event from hevent] at hsaves
    exact hsaves
  · intro k id hid
    have hbelow := List.all_eq_true.mp (hcheck k).left id (hids id hid)
    exact bne_iff_ne.mp hbelow

end Listed

/-!
# Two hosts that are killed

Member 1 is elected with the vote of member 2.  The process of member 2 is killed
while it writes the first entry, and once more right after it has renamed the
snapshot of its key-value store.
-/

def twoMembers : Membership where
  members := {1, 2}
  config := fun id =>
    { nodeId := id, peers := [1, 2].filter fun peer => peer ≠ id }
  nodeId_eq := fun _ _ => rfl
  peers_eq := by
    intro id hid
    have hcases : id = 1 ∨ id = 2 := by
      simpa using hid
    rcases hcases with rfl | rfl <;> decide

def dataDirectory (id : NodeId) : Path :=
  if id = 1 then "data/first" else "data/second/"

section Concrete

def twoHosts : HostCluster LeastEngine where
  hosts := fun id =>
    (Host.start (twoMembers.config id) (dataDirectory id) {}).getD
        ⟨{ config := twoMembers.config id
           storage := ⟨⟨⟨raftFile (dataDirectory id), ∅⟩, {}⟩⟩
           random := {} }, ⟨keyValueFile (dataDirectory id), ∅⟩⟩
  network := []

def firstNoOp : Message where
  fromNode := 1
  toNode := 2
  rpc := .appendEntriesRequest {
    term := 1
    leaderId := 1
    entries := [{ term := 1, isNoOp := true }]
    requestId := 1 }

def electsFirst : List HostEvent := [
  .operation 1 (.tick 150) [],
  .operation 1 .takeMessages [],
  .operation 2 (.handleRequest
    ⟨1, 2, .requestVoteRequest { term := 1, candidateId := 1 }⟩) [],
  .operation 1 (.step
    ⟨2, 1, .requestVoteResponse { term := 1, voteGranted := true }⟩) [],
  .operation 1 .takeMessages []]

def crashesAndWrites : List HostEvent := electsFirst ++ [
  .operation 2 (.handleRequest firstNoOp) [.succeeds, .succeeds, .crashes 3],
  .operation 2 (.handleRequest firstNoOp) [],
  .operation 1 (.step ⟨2, 1, .appendEntriesResponse {
    term := 1
    success := true
    matchIndex := 1
    conflictIndex := 2
    requestId := 1 }⟩) [],
  .request 2 (.put [7] [8]) (List.replicate 10 .succeeds ++ [.crashes 1]),
  .request 2 (.get [7]) [],
  .restart 1]

theorem mem_twoMembers {id : NodeId} (hid : id ∈ twoMembers.members) :
    id = 1 ∨ id = 2 := by
  simpa [twoMembers] using hid

theorem starts_twoHosts : twoHosts.Starts twoMembers dataDirectory := by
  constructor
  · rfl
  · intro id hid
    have hsome : (Host.start (twoMembers.config id) (dataDirectory id) {} :
        Option (Host LeastEngine)).isSome = true := by
      rcases mem_twoMembers hid with rfl | rfl
      · decide +kernel
      · decide +kernel
    refine ⟨{}, rfl, ?_⟩
    show _ = some (Option.getD _ _)
    rcases Option.isSome_iff_exists.mp hsome with ⟨host, hhost⟩
    rw [hhost]
    rfl

def crashingRun : Hosting LeastEngine twoMembers dataDirectory :=
  .ofEvents twoMembers dataDirectory (HostCluster.regular [1, 2]) twoHosts
    crashesAndWrites starts_twoHosts (by decide +kernel)

theorem regular_crashingRun : crashingRun.Regular := by
  apply regular_ofEvents
  intro id hid
  rcases mem_twoMembers hid with rfl | rfl <;> decide

/-- The save of member 2 fails in a handler, and the process goes on. -/
def stubbornRun : Hosting LeastEngine twoMembers dataDirectory :=
  .ofEvents twoMembers dataDirectory (fun _ _ => true) twoHosts
    (electsFirst ++ [
      .operation 2 (.handleRequest firstNoOp) [.succeeds, .fails 0],
      .request 2 (.put [7] [8]) (List.replicate 10 .succeeds ++ [.crashes 1]),
      .request 2 (.get [7]) []])
    starts_twoHosts (by decide +kernel)

end Concrete

end Node
end FTKV
