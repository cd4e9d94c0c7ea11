import FTKV.Cluster.Recovery
import FTKV.Cluster.Safety
import FTKV.Consensus.Behaviors

/-!
# What survives

A process can be killed at any call that changes the file system, and started again.
The entries of a key-value store are the work of its own requests in every run.  As
long as no process goes on after a save of its Raft state has failed, the cluster of
the hosts refines the abstract protocol across all that, and what was committed stays
in the files of a majority.
-/

namespace FTKV
namespace Node

open Foundation
open Foundation.Effect
open Consensus
open Raft
open Storage (CrashDisk Fate FilePersistence KvStore OpenStore Path)

/-!
# Steps of the cluster
-/

section Steps

variable {random : Type} {membership : Membership} {directory : NodeId -> Path}
  {id : NodeId} {c c' : HostCluster random} {host : Host random}
  {w w' : RaftWorld}

structure Installs (c : HostCluster random) (id : NodeId)
    (store : KvStore FilePersistence) (c' : HostCluster random) : Prop where
  self : (c'.hosts id).keyValueStore = store
  others : forall other, other ≠ id -> c'.hosts other = c.hosts other

theorem installs_install (c : HostCluster random) (id : NodeId)
    (host : Host random) (sent : List Message) :
    Installs c id host.keyValueStore (c.install id host sent) := by
  constructor
  · rw [HostCluster.install_hosts_self]
  · intro other hother
    exact HostCluster.install_hosts_of_ne c host sent hother

theorem Installs.same (h : Installs c id (c.hosts id).keyValueStore c')
    (other : NodeId) :
    (c'.hosts other).keyValueStore = (c.hosts other).keyValueStore := by
  by_cases hother : other = id
  · rw [hother]
    exact h.self
  · rw [h.others other hother]

variable [Storage.IterationOrder CrashDisk]

/-!
# The entries of the key-value stores
-/

def Host.memory (host : Host random) : Storage.InMemoryKeyValueStore :=
  { entries := host.keyValueStore.entries }

/--
The request that an event completes at a host.  A request whose rename has taken
place is complete, even if the process is killed before the reply is sent.
-/
def HostCluster.completes (c : HostCluster random) (id : NodeId) :
    HostEvent -> Option Storage.Request
  | .request other request fates =>
      if other = id ∧ (((c.hosts id).meets fates).serve request).1.isOk then
        some request
      else
        none
  | _ => none

structure Shows (c : HostCluster random) (event : HostEvent) (id : NodeId)
    (c' : HostCluster random) : Prop where
  memory : (c'.hosts id).memory =
    (c.hosts id).memory.after (c.completes id event).toList
  replies : forall request fates reply, event = .request id request fates ->
    c.reply event = some reply ->
      (c.hosts id).memory.perform request = (reply, (c'.hosts id).memory)

theorem shows_of_same {event : HostEvent}
    (hsame : (c'.hosts id).keyValueStore = (c.hosts id).keyValueStore)
    (hother : forall request fates, event ≠ .request id request fates) :
    Shows c event id c' := by
  have hnone : c.completes id event = none := by
    unfold HostCluster.completes
    split
    · rename_i other request fates
      rw [if_neg]
      intro hcompletes
      exact hother request fates (by rw [hcompletes.left])
    · rfl
  constructor
  · rw [hnone]
    unfold Host.memory
    rw [hsame]
    rfl
  · intro request fates reply hevent _
    exact absurd hevent (hother request fates)

theorem shows_request {directory : Path} (h : (c.hosts id).Sound directory)
    {request : Storage.Request} {fates : List Fate}
    (hinstalls : Installs c id
      (((c.hosts id).meets fates).serve request).2.keyValueStore c') :
    Shows c (.request id request fates) id c' := by
  rcases (h.meets fates).serve request with ⟨_, hserved, _⟩
  have hmemory : (c'.hosts id).memory =
      (((c.hosts id).meets fates).serve request).2.opened.memory := by
    unfold Host.memory
    rw [hinstalls.self]
    rfl
  constructor
  · rw [hmemory]
    simp only [HostCluster.completes, true_and]
    generalize ((c.hosts id).meets fates).serve request = result at hserved ⊢
    rcases result with ⟨r, host⟩
    cases r with
    | ok reply =>
        have hperform := hserved.returns reply rfl
        exact (congrArg Prod.snd hperform).symm
    | error fault =>
        exact congrArg Storage.InMemoryKeyValueStore.mk (hserved.throws fault rfl)
  · intro request' fates' reply hevent hreply
    cases hevent
    rw [hmemory]
    simp only [HostCluster.reply] at hreply
    generalize ((c.hosts id).meets fates).serve request = result at hserved hreply ⊢
    rcases result with ⟨r, host⟩
    cases r with
    | ok answer =>
        simp only at hreply
        split at hreply
        · cases hreply
        · cases hreply
          exact hserved.returns reply rfl
    | error fault => cases hreply

structure Kept (membership : Membership) (directory : NodeId -> Path)
    (c : HostCluster random) : Prop where
  sound : forall id, id ∈ membership.members -> (c.hosts id).Sound (directory id)
  well : forall id, id ∈ membership.members -> WellFormed (c.hosts id).node

theorem kept_install {sent : List Message} (h : Kept membership directory c)
    (hsound : host.Sound (directory id)) (hwell : WellFormed host.node) :
    Kept membership directory (c.install id host sent) := by
  constructor
  · exact HostCluster.forall_install sent h.sound hsound
  · exact @HostCluster.forall_install _ c id host membership.members
      (fun _ host => WellFormed host.node) sent h.well hwell

variable [RandomEngine random]

def HostCluster.Enabled (membership : Membership) (c : HostCluster random) :
    HostEvent -> Prop
  | .operation id op _ => id ∈ membership.members ∧ c.cluster.delivers op
  | .request id request _ => id ∈ membership.members ∧ request ≠ .reopen
  | .restart id => id ∈ membership.members

theorem enabled_of_next {event : HostEvent}
    (hnext : c.next membership directory event = some c') :
    c.Enabled membership event := by
  cases event with
  | operation id op fates | request id request fates | restart id =>
      simp only [HostCluster.next] at hnext
      split at hnext
      · rename_i hguard
        exact hguard
      · cases hnext

theorem kept_reboot (h : Kept membership directory c)
    (hsound : host.Sound (directory id))
    (hreboot : c.reboot membership directory id host = some c') :
    Kept membership directory c' ∧ Installs c id host.keyValueStore c' := by
  unfold HostCluster.reboot at hreboot
  split at hreboot
  · rename_i fresh hstart
    cases hreboot
    rcases built_of_start hstart with ⟨store, _, hbuilt⟩
    rcases hbuilt.created with ⟨node, hcreate, hmounted⟩
    constructor
    · apply kept_install h hbuilt.sound
      rw [hmounted]
      exact wellFormed_mount (fresh_of_create hcreate).well _
    · rw [← keyValueStore_of_start hsound hstart]
      exact installs_install c id fresh []
  · cases hreboot

theorem kept_operation (h : Kept membership directory c) {op : Operation}
    {fates : List Fate}
    (hnext : c.next membership directory (.operation id op fates) = some c') :
    Kept membership directory c' ∧ Installs c id (c.hosts id).keyValueStore c' := by
  simp only [HostCluster.next] at hnext
  split at hnext
  · rename_i hguard
    have hwell := wellFormed_mount (h.well id hguard.left)
      { (c.hosts id).disk with script := fates }
    have hsound := ((h.sound id hguard.left).meets fates).operate hwell op
    have hwell' : WellFormed (((c.hosts id).meets fates).operate op).2.node :=
      (perform_spec hwell op).left
    have hstore : (((c.hosts id).meets fates).operate op).2.keyValueStore =
        (c.hosts id).keyValueStore := rfl
    generalize ((c.hosts id).meets fates).operate op = result
      at hnext hsound hwell' hstore
    rcases result with ⟨r, host⟩
    rw [← hstore]
    simp only at hnext
    split at hnext
    · exact kept_reboot h hsound hnext
    · cases hnext
      exact ⟨kept_install h hsound hwell', installs_install c id host _⟩
  · cases hnext

theorem kept_request (h : Kept membership directory c) {request : Storage.Request}
    {fates : List Fate}
    (hnext : c.next membership directory (.request id request fates) = some c') :
    Kept membership directory c' ∧ Installs c id
      (((c.hosts id).meets fates).serve request).2.keyValueStore c' := by
  simp only [HostCluster.next] at hnext
  split at hnext
  · rename_i hguard
    rcases ((h.sound id hguard.left).meets fates).serve request with
      ⟨hsound, _, d, hmounted⟩
    have hwell : WellFormed (((c.hosts id).meets fates).serve request).2.node := by
      rw [hmounted]
      exact wellFormed_mount (wellFormed_mount (h.well id hguard.left) _) d
    generalize ((c.hosts id).meets fates).serve request = result
      at hnext hsound hwell ⊢
    rcases result with ⟨r, host⟩
    simp only at hnext
    split at hnext
    · exact kept_reboot h hsound hnext
    · cases hnext
      exact ⟨kept_install h hsound hwell, installs_install c id host []⟩
  · cases hnext

/-- Every event keeps both snapshots and shows the requests it completes. -/
theorem kept_next (h : Kept membership directory c) {event : HostEvent}
    (hnext : c.next membership directory event = some c') :
    Kept membership directory c' ∧ forall id, Shows c event id c' := by
  have hguard := enabled_of_next hnext
  cases event with
  | operation id op fates =>
      rcases kept_operation h hnext with ⟨hkept, hinstalls⟩
      refine ⟨hkept, ?_⟩
      intro other
      apply shows_of_same (hinstalls.same other)
      intro request fates' hevent
      cases hevent
  | request id request fates =>
      rcases kept_request h hnext with ⟨hkept, hinstalls⟩
      refine ⟨hkept, ?_⟩
      intro other
      by_cases hother : other = id
      · rw [hother]
        exact shows_request (h.sound id hguard.left) hinstalls
      · apply shows_of_same
        · rw [hinstalls.others other hother]
        · intro request' fates' hevent
          cases hevent
          exact hother rfl
  | restart id =>
      simp only [HostCluster.next, if_pos (show id ∈ membership.members from hguard)]
        at hnext
      rcases kept_reboot h (h.sound id hguard) hnext with ⟨hkept, hinstalls⟩
      refine ⟨hkept, ?_⟩
      intro other
      apply shows_of_same (hinstalls.same other)
      intro request fates' hevent
      cases hevent

/-!
# Refinement
-/

/-- The nodes refine the protocol, and every host can be started again. -/
structure Intact (membership : Membership) (directory : NodeId -> Path)
    (c : HostCluster random) (w : RaftWorld) : Prop where
  refines : Refines membership c.cluster w
  sound : forall id, id ∈ membership.members ->
    (c.hosts id).Sound (directory id)
  restartable : forall id, id ∈ membership.members ->
    Restartable (c.hosts id).node
  valid : forall id, id ∈ membership.members ->
    RaftNode.validateConfig (membership.config id) = .ok ()

omit [RandomEngine random] in
theorem intact_install {sent : List Message} (h : Intact membership directory c w)
    (hacts : Acts membership id w w')
    (hnode : Represents membership id host.node w')
    (hbacked : forall message, message ∈ sent -> Backed w' message)
    (hsound : host.Sound (directory id)) (hrestartable : Restartable host.node) :
    Intact membership directory (c.install id host sent) w' := by
  constructor
  · rw [HostCluster.cluster_install]
    exact refines_install h.refines hacts hnode hbacked
  · exact HostCluster.forall_install sent h.sound hsound
  · exact @HostCluster.forall_install _ c id host membership.members
      (fun _ host => Restartable host.node) sent h.restartable hrestartable
  · exact h.valid

theorem intact_reboot {n : RaftNode (DurableRaftStorage CrashDisk) random}
    (h : Intact membership directory c w)
    (hacts : Acts membership id w w') (hnode : Represents membership id n w')
    (hload : RaftStorage.load host.node.storage = .ok n.persistentState)
    (hsound : host.Sound (directory id))
    (hrecoverable : Recoverable (membership.config id) host.node.storage) :
    exists c' w'', c.reboot membership directory id host = some c' ∧
      Acts membership id w w'' ∧ Intact membership directory c' w'' := by
  rcases start_of_sound hsound hrecoverable with ⟨fresh, store, hstart, hbuilt, hsame⟩
  rcases hbuilt.created with ⟨node, hcreate, hmounted⟩
  rcases simulate_restart hnode (hsame.trans hload) hcreate with
    ⟨w'', hacts', hnode'⟩
  have hrestartable := restartable_of_accepted (fresh_of_create hcreate)
    (accepted_of_create hcreate)
  refine ⟨c.install id fresh [], w'', ?_, hacts.trans hacts', ?_⟩
  · unfold HostCluster.reboot
    rw [hstart]
  · apply intact_install h (hacts.trans hacts')
    · rw [hmounted]
      exact represents_mount hnode' _
    · intro message hnone
      cases hnone
    · exact hbuilt.sound
    · rw [hmounted]
      exact restartable_mount hrestartable _

theorem intact_operation (h : Intact membership directory c w)
    (hinv : Inv (majority membership.members) w)
    (hbound : (c.hosts id).node.currentTerm ≠ 18446744073709551615)
    {op : Operation} (fates : List Fate) (hid : id ∈ membership.members)
    (hdelivers : c.cluster.delivers op)
    (hsaves : c.saves (.operation id op fates) = true) :
    exists c' w', c.next membership directory (.operation id op fates) = some c' ∧
      Acts membership id w w' ∧ Intact membership directory c' w' := by
  have hinbox : forall message, op.inbox = some message -> Backed w message :=
    fun message hin =>
      h.refines.network message (Cluster.mem_network_of_delivers hdelivers hin)
  have hnode : Represents membership id ((c.hosts id).meets fates).node w :=
    represents_mount (h.refines.nodes id hid) _
  have hsimulated := simulate_operation hid hnode op hinbox hbound
  have hresumes := ensures_resumes hinv hnode
    (restartable_mount (h.restartable id hid) _) (h.valid id hid) hbound op hinbox
  have hsound := ((h.sound id hid).meets fates).operate hnode.well op
  unfold Ensures at hsimulated hresumes
  simp only [HostCluster.next, if_pos (And.intro hid hdelivers)]
  rw [HostCluster.saves_operation] at hsaves
  unfold Host.operate at hsound hsaves ⊢
  generalize outcome op.perform ((c.hosts id).meets fates).node = result
    at hsimulated hresumes hsound hsaves ⊢
  rcases result with ⟨r, node⟩
  simp only at hsimulated hresumes hsound hsaves ⊢
  split
  · cases hsimulated with
    | completed hacts hnode' hmessages =>
        exact intact_reboot h hacts hnode' hnode'.mirrored hsound
          hresumes.recoverable
    | crashed hacts hnode' hload =>
        exact intact_reboot h hacts hnode' hload hsound hresumes.recoverable
  · rename_i hgoes
    -- The process goes on, so that its save has not failed.
    have hsaved : storageThrew r = false := by
      simpa [not_or.mp hgoes] using hsaves
    have hreturns := storageThrew_eq_false hsaved
    cases hsimulated with
    | completed hacts hnode' hmessages =>
        exact ⟨_, _, rfl, hacts, intact_install h hacts hnode' hmessages hsound
          (hresumes.restartable hreturns)⟩
    | crashed => exact absurd rfl (hreturns _)

theorem intact_request (h : Intact membership directory c w)
    {request : Storage.Request} (fates : List Fate)
    (hid : id ∈ membership.members) (hclient : request ≠ .reopen) :
    exists c' w', c.next membership directory (.request id request fates) =
        some c' ∧ Acts membership id w w' ∧ Intact membership directory c' w' := by
  have hnode : Represents membership id ((c.hosts id).meets fates).node w :=
    represents_mount (h.refines.nodes id hid) _
  have hrestartable : Restartable ((c.hosts id).meets fates).node :=
    restartable_mount (h.restartable id hid) _
  rcases ((h.sound id hid).meets fates).serve request with ⟨hsound, _, d, hmounted⟩
  have hserved : Represents membership id
      (((c.hosts id).meets fates).serve request).2.node w := by
    rw [hmounted]
    exact represents_mount hnode d
  have hrestartable' : Restartable
      (((c.hosts id).meets fates).serve request).2.node := by
    rw [hmounted]
    exact restartable_mount hrestartable d
  simp only [HostCluster.next, if_pos (And.intro hid hclient)]
  generalize ((c.hosts id).meets fates).serve request = result
    at hsound hserved hrestartable' ⊢
  rcases result with ⟨r, host⟩
  simp only at hsound hserved hrestartable' ⊢
  split
  · exact intact_reboot h .refl hserved hserved.mirrored hsound
      (recoverable_of_restartable hserved hrestartable' (h.valid id hid))
  · refine ⟨_, w, rfl, .refl, ?_⟩
    apply intact_install h .refl hserved _ hsound hrestartable'
    intro message hnone
    cases hnone

theorem intact_restart (h : Intact membership directory c w)
    (hid : id ∈ membership.members) :
    exists c' w', c.next membership directory (.restart id) = some c' ∧
      Acts membership id w w' ∧ Intact membership directory c' w' := by
  have hnode : Represents membership id (c.hosts id).node w :=
    h.refines.nodes id hid
  simp only [HostCluster.next, if_pos hid]
  exact intact_reboot h .refl hnode hnode.mirrored (h.sound id hid)
    (recoverable_of_restartable hnode (h.restartable id hid) (h.valid id hid))

theorem intact_next (h : Intact membership directory c w)
    (hinv : Inv (majority membership.members) w)
    (hterms : forall id, id ∈ membership.members ->
      (c.hosts id).node.currentTerm ≠ 18446744073709551615)
    {event : HostEvent} (henabled : c.Enabled membership event)
    (hsaves : c.saves event = true) :
    exists c' w', c.next membership directory event = some c' ∧
      Steps (majority membership.members) w w' ∧ Intact membership directory c' w' := by
  cases event with
  | operation id op fates =>
      rcases intact_operation h hinv (hterms id henabled.left) fates henabled.left
        henabled.right hsaves with ⟨c', w', hnext, hacts, hintact⟩
      exact ⟨c', w', hnext, steps_of_acts hacts, hintact⟩
  | request id request fates =>
      rcases intact_request h fates henabled.left henabled.right with
        ⟨c', w', hnext, hacts, hintact⟩
      exact ⟨c', w', hnext, steps_of_acts hacts, hintact⟩
  | restart id =>
      rcases intact_restart h henabled with ⟨c', w', hnext, hacts, hintact⟩
      exact ⟨c', w', hnext, steps_of_acts hacts, hintact⟩

/-- A process whose handler has failed to save goes on. -/
theorem next_of_not_saves {event : HostEvent} (henabled : c.Enabled membership event)
    (hfails : c.saves event = false) :
    exists c', c.next membership directory event = some c' := by
  cases event with
  | operation id op fates =>
      have hguard : id ∈ membership.members ∧ c.cluster.delivers op = true := henabled
      simp only [HostCluster.next, if_pos hguard]
      rw [HostCluster.saves_operation] at hfails
      generalize ((c.hosts id).meets fates).operate op = result at hfails ⊢
      rcases result with ⟨r, host⟩
      simp only [Bool.or_eq_false_iff] at hfails
      rcases hfails with ⟨⟨halive, hgoes⟩, _⟩
      exact ⟨_, if_neg (by simp [halive, hgoes])⟩
  | request id request fates => cases hfails
  | restart id => cases hfails

end Steps

/-!
# Whole runs
-/

section Runs

variable {random : Type} [Storage.IterationOrder CrashDisk] [RandomEngine random]
  {membership : Membership} {directory : NodeId -> Path}

theorem load_of_absent {directory : Path} {d : CrashDisk}
    {store : DurableRaftStorage CrashDisk}
    (hcreate : DurableRaftStorage.create (joinPath directory "raft.snapshot") d =
      .ok store) (habsent : d.files (raftFile directory).filePath = none) :
    RaftStorage.load store = .ok {} := by
  rcases DurableRaftStorage.openedOn_of_create hcreate with ⟨file, hfile, hopened⟩
  rw [create_raftFile] at hfile
  cases hfile
  have hloaded := (OpenStore.coherent_iff _).mp hopened.left
  have hfiles := files_of_create hcreate
  change _ = d.files at hfiles
  rw [hopened.right] at hloaded
  change (raftFile directory).loaded (store.opened.disk.files _) = _ at hloaded
  rw [hfiles, habsent] at hloaded
  rw [DurableRaftStorage.load_eq, ← Except.ok.inj hloaded]
  rfl

theorem intact_starts {c : HostCluster random} (h : c.Starts membership directory) :
    Intact membership directory c initialWorld := by
  have hhost : forall id, id ∈ membership.members ->
      (c.hosts id).Sound (directory id) ∧ exists store node,
        RaftStorage.load store = .ok {} ∧
        RaftNode.create (membership.config id) store = .ok node ∧
        (c.hosts id).node = Host.mount node (c.hosts id).disk := by
    intro id hid
    rcases h.hosts id hid with ⟨d, habsent, hstart⟩
    rcases built_of_start hstart with ⟨store, hstore, hbuilt⟩
    rcases hbuilt.created with ⟨node, hcreate, hmounted⟩
    exact ⟨hbuilt.sound, store, node, load_of_absent hstore habsent, hcreate,
      hmounted⟩
  constructor
  · constructor
    · intro id hid
      rcases hhost id hid with ⟨_, store, node, hload, hcreate, hmounted⟩
      have hfresh := fresh_of_create hcreate
      show Represents membership id (c.hosts id).node initialWorld
      rw [hmounted]
      exact represents_mount
        (hfresh.represents (hfresh.replica_eq hload).symm) _
    · show forall message, message ∈ c.network -> _
      rw [h.network]
      intro message hnone
      cases hnone
  · intro id hid
    exact (hhost id hid).left
  · intro id hid
    rcases hhost id hid with ⟨_, store, node, _, hcreate, hmounted⟩
    rw [hmounted]
    exact restartable_mount (restartable_of_accepted (fresh_of_create hcreate)
      (accepted_of_create hcreate)) _
  · intro id hid
    rcases hhost id hid with ⟨_, store, node, _, hcreate, _⟩
    exact (accepted_of_create hcreate).valid

variable (run : Hosting random membership directory)

theorem kept_run (k : Nat) : Kept membership directory (run.states k) := by
  induction k with
  | zero =>
      have hhost : forall id, id ∈ membership.members ->
          ((run.states 0).hosts id).Sound (directory id) ∧
            WellFormed ((run.states 0).hosts id).node := by
        intro id hid
        rcases run.starts.hosts id hid with ⟨d, _, hstart⟩
        rcases built_of_start hstart with ⟨store, _, hbuilt⟩
        rcases hbuilt.created with ⟨node, hcreate, hmounted⟩
        refine ⟨hbuilt.sound, ?_⟩
        rw [hmounted]
        exact wellFormed_mount (fresh_of_create hcreate).well _
      exact ⟨fun id hid => (hhost id hid).left, fun id hid => (hhost id hid).right⟩
  | succ k ih =>
      have hnext := run.next k
      cases hevent : run.events k with
      | none =>
          simp only [hevent] at hnext
          rw [hnext]
          exact ih
      | some event =>
          simp only [hevent] at hnext
          exact (kept_next ih hnext).left

theorem intact_succ {run : Hosting random membership directory} (hregular : run.Regular)
    (k : Nat) (w : RaftWorld) (h : Intact membership directory (run.states k) w)
    (hinv : Inv (majority membership.members) w) :
    exists w', Steps (majority membership.members) w w' ∧
      Intact membership directory (run.states (k + 1)) w' := by
  have hnext := run.next k
  cases hevent : run.events k with
  | none =>
      simp only [hevent] at hnext
      rw [hnext]
      exact ⟨w, .refl, h⟩
  | some event =>
      simp only [hevent] at hnext
      rcases intact_next h hinv (hregular.terms k) (enabled_of_next hnext)
        (hregular.saves k event hevent) with ⟨c', w', hnext', hsteps, hintact⟩
      rw [hnext] at hnext'
      cases hnext'
      exact ⟨w', hsteps, hintact⟩

/-- Every such run of the hosts refines a run of the abstract protocol. -/
theorem exists_behavior {run : Hosting random membership directory}
    (hregular : run.Regular) : exists worlds,
    Behavior (majority membership.members) worlds ∧
      forall k, Intact membership directory (run.states k) (worlds k) := by
  choose next hsteps hintact using intact_succ hregular
  let sequence : forall k, { w : RaftWorld //
      Intact membership directory (run.states k) w ∧
        Inv (majority membership.members) w } :=
    Nat.rec ⟨initialWorld, intact_starts run.starts,
        inv_initial initial_initialWorld⟩
      (fun k w => ⟨next k w.val w.property.left w.property.right,
        hintact k w.val w.property.left w.property.right,
        (inv_steps w.property.right
          (hsteps k w.val w.property.left w.property.right)).left⟩)
  refine ⟨fun k => (sequence k).val, ⟨initial_initialWorld, ?_⟩, ?_⟩
  · intro k
    exact hsteps k (sequence k).val (sequence k).property.left
      (sequence k).property.right
  · intro k
    exact (sequence k).property.left

def Hosting.completed (id : NodeId) (k : Nat) : List Storage.Request :=
  (List.range k).filterMap fun i =>
    (run.events i).bind ((run.states i).completes id)

theorem Hosting.completed_succ (id : NodeId) (k : Nat) :
    run.completed id (k + 1) = run.completed id k ++
      ((run.events k).bind ((run.states k).completes id)).toList := by
  unfold Hosting.completed
  rw [List.range_succ, List.filterMap_append, List.filterMap_cons]
  cases (run.events k).bind ((run.states k).completes id) <;> rfl

end Runs

/-!
# Results
-/

section Results

/--
Killing a process never leaves a host that cannot go on: at every point of a run every
event that can happen has a successor, wherever the calls that change the file system
fail or are cut short.
-/
theorem hosts_always_recover {random : Type}
    [Storage.IterationOrder CrashDisk] [RandomEngine random]
    {membership : Membership} {directory : NodeId -> Path}
    (run : Hosting random membership directory) (hregular : run.Regular)
    (k : Nat) {event : HostEvent}
    (henabled : (run.states k).Enabled membership event) :
    exists c', (run.states k).next membership directory event = some c' := by
  rcases exists_behavior hregular with ⟨worlds, hbehavior, hintact⟩
  cases hsaves : (run.states k).saves event with
  | true =>
      rcases intact_next (hintact k) (hbehavior.inv k) (hregular.terms k) henabled
        hsaves with ⟨c', _, hnext, _⟩
      exact ⟨c', hnext⟩
  | false => exact next_of_not_saves henabled hsaves

/-- The process of member 2 is killed in the middle of a write. -/
theorem hosts_always_recover_cut :
    exists c', (crashingRun.states 5).next twoMembers dataDirectory
      (.operation 2 (.handleRequest firstNoOp)
        [.succeeds, .succeeds, .crashes 3]) = some c' :=
  hosts_always_recover crashingRun regular_crashingRun 5 ⟨by decide, by decide +kernel⟩

/--
Election safety and state machine safety, with processes that are killed at any call
that changes the file system.
-/
theorem hosts_agree {random : Type}
    [Storage.IterationOrder CrashDisk] [RandomEngine random]
    {membership : Membership} {directory : NodeId -> Path}
    (run : Hosting random membership directory) (hregular : run.Regular)
    {a b : NodeId} (ha : a ∈ membership.members)
    (hb : b ∈ membership.members) (j k : Nat) :
    (((run.states j).hosts a).node.state = .leader ->
      ((run.states k).hosts b).node.state = .leader ->
      ((run.states j).hosts a).node.currentTerm =
        ((run.states k).hosts b).node.currentTerm -> a = b) ∧
      forall index, index <= ((run.states j).hosts a).node.commitIndex ->
        index <= ((run.states k).hosts b).node.commitIndex ->
          ((run.states j).hosts a).node.log.at? index =
            ((run.states k).hosts b).node.log.at? index := by
  rcases exists_behavior hregular with ⟨worlds, hbehavior, hintact⟩
  have hleft := (hintact j).refines.nodes a ha
  have hright := (hintact k).refines.nodes b hb
  constructor
  · intro hleads hleads' hterm
    have hwinner := (hbehavior.evolves (le_max_left j k)).winner _ _
      (hleft.leader (hbehavior.inv j) hleads).left
    have hwinner' := (hbehavior.evolves (le_max_right j k)).winner _ _
      (hright.leader (hbehavior.inv k) hleads').left
    change (worlds (max j k)).winner ((run.states j).hosts a).node.currentTerm =
      some a at hwinner
    change (worlds (max j k)).winner ((run.states k).hosts b).node.currentTerm =
      some b at hwinner'
    rw [hterm, hwinner'] at hwinner
    exact (Option.some.inj hwinner).symm
  · intro index hindex hindex'
    exact at?_eq_of_take (settled_agree (hbehavior.inv (max j k))
      (hbehavior.settled_later (le_max_left j k)
        (hleft.settled (hbehavior.inv j)))
      (hbehavior.settled_later (le_max_right j k)
        (hright.settled (hbehavior.inv k))) hindex hindex')

theorem commitIndex_crashingRun :
    ((crashingRun.states 8).hosts 1).node.commitIndex = 1 := by
  decide +kernel

theorem hosts_agree_crashingRun :
    ((crashingRun.states 8).hosts 1).node.commitIndex = 1 ∧
      ((crashingRun.states 8).hosts 1).node.log.at? 1 =
        ((crashingRun.states 9).hosts 1).node.log.at? 1 :=
  ⟨commitIndex_crashingRun,
    (hosts_agree crashingRun regular_crashingRun (by decide) (by decide) 8 9).right 1
      commitIndex_crashingRun.ge (by decide +kernel)⟩

/--
Committed entries survive: there is a majority whose members, at every later point
of the run, have them in the file that a new process would load.
-/
theorem committed_entries_survive {random : Type}
    [Storage.IterationOrder CrashDisk] [RandomEngine random]
    {membership : Membership} {directory : NodeId -> Path}
    (run : Hosting random membership directory) (hregular : run.Regular)
    {a : NodeId} (ha : a ∈ membership.members) (j : Nat) :
    exists Q, (majority membership.members).IsQuorum Q ∧
      forall k, j <= k -> forall v, v ∈ Q -> exists store state,
        DurableRaftStorage.create (joinPath (directory v) "raft.snapshot")
          ((run.states k).hosts v).disk.restart = .ok store ∧
        RaftStorage.load store = .ok state ∧
        ((run.states j).hosts a).node.log.entries.take
          ((run.states j).hosts a).node.commitIndex <+: state.log := by
  rcases exists_behavior hregular with ⟨worlds, hbehavior, hintact⟩
  have hquorum : exists Q, (majority membership.members).IsQuorum Q := by
    have hpos := Finset.card_pos.mpr ⟨a, ha⟩
    exact ⟨membership.members, Finset.Subset.refl _, by lia⟩
  rcases hbehavior.settled_held hquorum
    (((hintact j).refines.nodes a ha).settled (hbehavior.inv j)) with
    ⟨Q, hQ, hheld⟩
  exists Q
  constructor
  · exact hQ
  intro k hjk v hv
  have hmember := hQ.left hv
  have hnode := (hintact k).refines.nodes v hmember
  have hrestarted := ((hintact k).sound v hmember).onDisk
    (d := ((run.states k).hosts v).disk.restart) rfl
  rcases DurableRaftStorage.create_of_openedOn (create_raftFile (directory v))
    hrestarted.raft with ⟨store, hstore, hload⟩
  rw [load_mount] at hload
  refine ⟨store, _, hstore, hload.trans hnode.mirrored, ?_⟩
  have hreplica := hheld k hjk v hv
  rw [hnode.replica] at hreplica
  exact hreplica

theorem committed_entries_survive_crashingRun :
    ((crashingRun.states 8).hosts 1).node.commitIndex = 1 ∧
      exists Q, (majority twoMembers.members).IsQuorum Q ∧
        forall k, 8 <= k -> forall v, v ∈ Q -> exists store state,
          DurableRaftStorage.create (joinPath (dataDirectory v) "raft.snapshot")
            ((crashingRun.states k).hosts v).disk.restart = .ok store ∧
          RaftStorage.load store = .ok state ∧
          ((crashingRun.states 8).hosts 1).node.log.entries.take
            ((crashingRun.states 8).hosts 1).node.commitIndex <+: state.log :=
  ⟨commitIndex_crashingRun,
    committed_entries_survive crashingRun regular_crashingRun (by decide) 8⟩

/--
The entries of a key-value store are those that its completed requests leave in
memory: neither what ends a process nor what the Raft node writes to the same disk
changes them, be its saves successful or not.  Every reply is the one that the store
in memory gives.
-/
theorem stores_keep_entries {random : Type}
    [Storage.IterationOrder CrashDisk] [RandomEngine random]
    {membership : Membership} {directory : NodeId -> Path}
    (run : Hosting random membership directory)
    (id : NodeId) (k : Nat) :
    ((run.states k).hosts id).memory =
        ((run.states 0).hosts id).memory.after (run.completed id k) ∧
      forall request fates reply,
        run.events k = some (.request id request fates) ->
          (run.states k).reply (.request id request fates) = some reply ->
            ((run.states k).hosts id).memory.perform request =
              (reply, ((run.states (k + 1)).hosts id).memory) := by
  have hshows : forall i event, run.events i = some event ->
      Shows (run.states i) event id (run.states (i + 1)) := by
    intro i event hevent
    have hnext := run.next i
    simp only [hevent] at hnext
    exact (kept_next (kept_run run i) hnext).right id
  constructor
  · induction k with
    | zero => rfl
    | succ k ih =>
        rw [run.completed_succ, Storage.InMemoryKeyValueStore.after_append, ← ih]
        have hnext := run.next k
        cases hevent : run.events k with
        | none =>
            simp only [hevent] at hnext
            rw [hnext]
            rfl
        | some event => exact (hshows k event hevent).memory
  · intro request fates reply hevent hreply
    exact (hshows k _ hevent).replies request fates reply rfl hreply

/--
The handler of member 2 fails to save the entry, and the process goes on; the write
that was cut short after its rename is there.
-/
theorem stores_keep_entries_stubbornRun :
    (stubbornRun.states 5).saves
        (.operation 2 (.handleRequest firstNoOp) [.succeeds, .fails 0]) = false ∧
      stubbornRun.completed 2 8 = [.put [7] [8], .get [7]] ∧
      ((stubbornRun.states 7).hosts 2).memory.perform (.get [7]) =
        (.found (some [8]), ((stubbornRun.states (7 + 1)).hosts 2).memory) := by
  have hevent : stubbornRun.events 7 = some (.request 2 (.get [7]) []) := by
    decide +kernel
  have hreply : (stubbornRun.states 7).reply (.request 2 (.get [7]) []) =
      some (.found (some [8])) := by
    decide +kernel
  refine ⟨by decide +kernel, by decide +kernel, ?_⟩
  exact (stores_keep_entries stubbornRun 2 7).right _ _ _ hevent hreply

end Results

end Node
end FTKV
