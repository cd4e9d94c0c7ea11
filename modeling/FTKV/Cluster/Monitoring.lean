import FTKV.Cluster.Hints
import FTKV.Consensus.Behaviors
import FTKV.Grpc.Status

/-!
# Watching a cluster

What an operator learns from status calls while the cluster runs.  A call may take
several attempts, and the node goes on between them.
-/

namespace FTKV
namespace Raft

open Foundation
open Foundation.Effect
open Consensus
open FTKV.Rpc (Fortune GrpcClientOptions watcher status_is_snapshot)

section Runs

variable {storage random : Type} [RaftStorage storage] [RandomEngine random]
  {membership : Membership} {run : Execution storage random membership}
  {id : NodeId} {i j k : Nat}

/-!
# Leaderships
-/

theorem Shadow.behavior (shadow : Shadow run) :
    Behavior (majority membership.members) shadow.worlds :=
  ⟨shadow.initial, shadow.steps⟩

theorem Shadow.matures (shadow : Shadow run) (hid : id ∈ membership.members)
    (hjk : j <= k) :
    ((run.states j).nodes id).currentTerm <= ((run.states k).nodes id).currentTerm ∧
    (((run.states k).nodes id).currentTerm = ((run.states j).nodes id).currentTerm ->
      (roleOf ((run.states j).nodes id).state).stage <=
        (roleOf ((run.states k).nodes id).state).stage ∧
      (((run.states j).nodes id).state = .leader ->
        ((run.states k).nodes id).state = .leader ->
        ((run.states j).nodes id).commitIndex <=
          ((run.states k).nodes id).commitIndex)) := by
  have hmatures := shadow.behavior.matures hjk id
  have hcurrent := hmatures.current
  have hstage := hmatures.stage
  have hcommit := hmatures.commit
  rw [(shadow.represents j hid).replica,
    (shadow.represents k hid).replica] at hcurrent hstage hcommit
  refine ⟨hcurrent, ?_⟩
  intro hsame
  refine ⟨hstage hsame, ?_⟩
  intro hleads hleads'
  apply hcommit hsame
  · exact congrArg roleOf hleads
  · exact congrArg roleOf hleads'

theorem leader_of_stage {state : NodeState}
    (hlow : Role.leader.stage <= (roleOf state).stage)
    (hhigh : (roleOf state).stage <= Role.leader.stage) : state = .leader := by
  cases state with
  | leader => rfl
  | follower => exact absurd hhigh (by decide)
  | candidate => exact absurd hlow (by decide)

theorem unbroken (shadow : Shadow run)
    (hid : id ∈ membership.members) (hji : j <= i) (hik : i <= k)
    (hleads : ((run.states j).nodes id).state = .leader)
    (hleads' : ((run.states k).nodes id).state = .leader)
    (hterm : ((run.states j).nodes id).currentTerm =
      ((run.states k).nodes id).currentTerm) :
    ((run.states i).nodes id).state = .leader ∧
      ((run.states i).nodes id).currentTerm =
        ((run.states j).nodes id).currentTerm ∧
      ((run.states j).nodes id).log.entries <+:
        ((run.states i).nodes id).log.entries ∧
      ((run.states j).nodes id).commitIndex <=
        ((run.states i).nodes id).commitIndex := by
  rcases shadow.matures hid hji with ⟨hfirst, hrising⟩
  rcases shadow.matures hid hik with ⟨hsecond, hfalling⟩
  have hsame : ((run.states i).nodes id).currentTerm =
      ((run.states j).nodes id).currentTerm :=
    le_antisymm (hterm ▸ hsecond) hfirst
  rcases hrising hsame with ⟨hlow, hcommit⟩
  rcases hfalling (hterm.symm.trans hsame.symm) with ⟨hhigh, _⟩
  rw [hleads] at hlow
  rw [hleads'] at hhigh
  have hleads'' := leader_of_stage hlow hhigh
  refine ⟨hleads'', hsame, ?_, hcommit hleads hleads''⟩
  -- The log of a leader is the log of its leadership, which only grows.
  rcases shadow.leader hid hleads with ⟨hwon, hlead⟩
  rcases shadow.leader hid hleads'' with ⟨_, hlead''⟩
  rw [← hlead, ← hlead'', hsame]
  exact (shadow.evolves hji).lead _ ⟨id, hwon⟩

theorem led_later {leader : NodeId} {term : Term} (hjk : j <= k)
    (h : Led run j leader term) : Led run k leader term := by
  rcases h with ⟨hmember, moment, hmoment, hleads⟩
  exact ⟨hmember, moment, Nat.le_trans hmoment hjk, hleads⟩

variable [LawfulRaftStorage storage]

/--
A leadership is unbroken: a member that leads a term at two moments has led it at
every moment in between, and its log and its commit index have only grown.  As in every
run, a member whose save fails is restarted and none reaches the greatest term.
-/
theorem leadership_unbroken (run : Execution storage random membership)
    (hid : id ∈ membership.members) (hji : j <= i) (hik : i <= k)
    (hleads : ((run.states j).nodes id).state = .leader)
    (hleads' : ((run.states k).nodes id).state = .leader)
    (hterm : ((run.states j).nodes id).currentTerm =
      ((run.states k).nodes id).currentTerm) :
    ((run.states i).nodes id).state = .leader ∧
      ((run.states i).nodes id).currentTerm =
        ((run.states j).nodes id).currentTerm ∧
      ((run.states j).nodes id).log.entries <+:
        ((run.states i).nodes id).log.entries ∧
      ((run.states j).nodes id).commitIndex <=
        ((run.states i).nodes id).commitIndex := by
  rcases exists_shadow run with ⟨shadow⟩
  exact unbroken shadow hid hji hik hleads hleads' hterm

theorem leadership_unbroken_threeRun :
    ((threeRun.states 6).nodes 1).state = .leader ∧
      ((threeRun.states 4).nodes 1).log.entries <+:
        ((threeRun.states 6).nodes 1).log.entries := by
  have hunbroken := leadership_unbroken (i := 6) (j := 4) (k := 10) threeRun
    (show (1 : NodeId) ∈ threeMembers.members by decide) (by decide) (by decide)
    (by decide +kernel) (by decide +kernel) (by decide +kernel)
  exact ⟨hunbroken.left, hunbroken.right.right.left⟩

/-!
# Status calls
-/

/-- A status call, with what happens to its attempts and how long its pauses last. -/
structure Probe where
  target : NodeId
  start : Nat
  options : GrpcClientOptions := {}
  fortunes : Nat -> Fortune := fun _ => {}
  pauses : Nat -> Nat := fun _ => 0

def Probe.ask (probe : Probe) (run : Execution storage random membership) :
    Except FTKV.Rpc.Fault NodeSnapshot × Nat :=
  outcome (watcher probe.options (fun k => (run.states k).nodes probe.target)
    probe.fortunes probe.pauses).status probe.start

omit [LawfulRaftStorage storage] in
theorem Probe.moment {probe : Probe} {status : NodeSnapshot}
    (h : (probe.ask run).1 = .ok status) :
    exists moment, probe.start <= moment ∧ moment <= (probe.ask run).2 ∧
      status = ((run.states moment).nodes probe.target).snapshot := by
  unfold Probe.ask at h ⊢
  exact status_is_snapshot (Prod.ext h rfl)

/--
Statuses that are read from running members are consistent.  In one term there is
one leader that members report, be it themselves or another member.  Of two
statuses of one member, the later one has no smaller term, and if both say that it
leads the same term, it has kept its log and what it has committed.  A member whose
save fails is restarted along the run, and none reaches the greatest term.
-/
theorem statuses_consistent (run : Execution storage random membership)
    {probe probe' : Probe} (hmember : probe.target ∈ membership.members)
    (hmember' : probe'.target ∈ membership.members) {status status' : NodeSnapshot}
    (hstatus : (probe.ask run).1 = .ok status)
    (hstatus' : (probe'.ask run).1 = .ok status') :
    (status.currentTerm = status'.currentTerm -> forall leader leader',
      status.leaderId = some leader -> status'.leaderId = some leader' ->
        leader = leader') ∧
    (status.state = .leader -> status.leaderId = some status.nodeId) ∧
    (status.nodeId = status'.nodeId -> (probe.ask run).2 <= probe'.start ->
      status.currentTerm <= status'.currentTerm ∧
      (status.state = .leader -> status'.state = .leader ->
        status.currentTerm = status'.currentTerm ->
        status.lastLogIndex <= status'.lastLogIndex ∧
          status.commitIndex <= status'.commitIndex)) := by
  rcases exists_shadow run with ⟨shadow⟩
  rcases Probe.moment hstatus with ⟨moment, _, hend, hread⟩
  rcases Probe.moment hstatus' with ⟨moment', hstart', _, hread'⟩
  have hid := (shadow.represents moment hmember).nodeId_eq hmember
  have hid' := (shadow.represents moment' hmember').nodeId_eq hmember'
  rw [hread, hread']
  refine ⟨?_, ?_, ?_⟩
  · intro hterm leader leader' hleader hleader'
    have hled := led_later (Nat.le_max_left moment moment')
      ((truthful_run shadow moment).hints _ hmember leader hleader)
    have hled' := led_later (Nat.le_max_right moment moment')
      ((truthful_run shadow moment').hints _ hmember' leader' hleader')
    change ((run.states moment).nodes _).currentTerm =
      ((run.states moment').nodes _).currentTerm at hterm
    rw [hterm] at hled
    exact led_unique shadow hled hled'
  · intro hleads
    change ((run.states moment).nodes _).leaderId =
      some ((run.states moment).nodes _).config.nodeId
    rw [hid]
    exact (truthful_run shadow moment).own _ hmember hleads
  · intro hsame hbefore
    change ((run.states moment).nodes _).config.nodeId =
      ((run.states moment').nodes _).config.nodeId at hsame
    rw [hid, hid'] at hsame
    rw [hsame] at hmember ⊢
    have horder : moment <= moment' :=
      Nat.le_trans hend (Nat.le_trans hbefore hstart')
    refine ⟨(shadow.matures hmember horder).left, ?_⟩
    intro hleads hleads' hterm
    rcases unbroken shadow hmember horder (Nat.le_refl moment') hleads hleads' hterm with
      ⟨_, _, hlog, hcommit⟩
    exact ⟨hlog.length_le, hcommit⟩

end Runs

def electedProbe : Probe where
  target := 1
  start := 4

def leaderProbe : Probe where
  target := 1
  start := 7
  fortunes := fun now =>
    if now = 7 then { failure := some ⟨⟨.unavailable, ""⟩, by decide⟩ } else {}
  pauses := fun _ => 1

def followerProbe : Probe where
  target := 2
  start := 8
  fortunes := fun _ => { delay := 1, latency := 1 }

/-- Between the first two calls the leader appends an entry and commits it. -/
theorem statuses_consistent_threeRun :
    exists elected leader follower : NodeSnapshot,
      (electedProbe.ask threeRun).1 = .ok elected ∧
      (leaderProbe.ask threeRun).1 = .ok leader ∧
      (followerProbe.ask threeRun).1 = .ok follower ∧
      (leader.leaderId = some 1 ∧ follower.leaderId = some 1) ∧
      elected.currentTerm <= leader.currentTerm ∧
      elected.lastLogIndex <= leader.lastLogIndex ∧
      elected.commitIndex <= leader.commitIndex ∧
      elected.commitIndex ≠ leader.commitIndex := by
  have helected : (electedProbe.ask threeRun).1 = .ok
      { nodeId := 1, state := .leader, currentTerm := 1, leaderId := some 1,
        lastLogIndex := 1 } := by
    decide +kernel
  have hleader : (leaderProbe.ask threeRun).1 = .ok
      { nodeId := 1, state := .leader, currentTerm := 1, leaderId := some 1,
        commitIndex := 2, lastApplied := 2, lastLogIndex := 2 } := by
    decide +kernel
  have hfollower : (followerProbe.ask threeRun).1 = .ok
      { nodeId := 2, currentTerm := 1, leaderId := some 1, lastLogIndex := 2 } := by
    decide +kernel
  have horder : (electedProbe.ask threeRun).2 <= leaderProbe.start := by
    decide +kernel
  rcases statuses_consistent threeRun (by decide) (by decide) helected hleader with
    ⟨_, _, hlater⟩
  rcases hlater rfl horder with ⟨hterm, hgrows⟩
  rcases hgrows rfl rfl rfl with ⟨hlog, hcommit⟩
  have hone := (statuses_consistent threeRun (by decide) (by decide) hleader
    hfollower).left rfl 1 1 rfl rfl
  exact ⟨_, _, _, helected, hleader, hfollower, ⟨congrArg some hone, rfl⟩, hterm, hlog,
    hcommit, by decide⟩

end Raft
end FTKV
