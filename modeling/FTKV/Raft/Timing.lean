import FTKV.Raft.Saving

/-!
# Timers

When a node starts an election and when a leader sends heartbeats.  Ticks are the
only passage of time that a node knows, and the two comparisons of `tick` are
subtractions that stay within the range of the configuration only because both
counters stay below what they are compared with.
-/

namespace FTKV
namespace Raft

open Foundation
open Foundation.Effect

variable {storage random : Type} {n n' : RaftNode storage random}

/-!
# Clocks
-/

structure Clock where
  state : NodeState
  electionElapsed : Int
  electionTimeout : Int
  heartbeatElapsed : Int

def Clock.anew (timeout : Int) : Clock where
  state := .follower
  electionElapsed := 0
  electionTimeout := timeout
  heartbeatElapsed := 0

def RaftNode.clock (n : RaftNode storage random) : Clock where
  state := n.state
  electionElapsed := n.electionElapsed
  electionTimeout := n.electionTimeout
  heartbeatElapsed := n.heartbeatElapsed

/-- The milliseconds that an operation lets pass; a negative tick is refused. -/
def Operation.waited : Operation -> Int
  | .tick elapsed => if elapsed < 0 then 0 else elapsed
  | _ => 0

def waited (ops : List Operation) : Int :=
  (ops.map Operation.waited).sum

structure Paced (config : RaftConfig) : Prop where
  heartbeat_pos : 0 < config.heartbeatInterval
  heartbeat_lt : config.heartbeatInterval < config.electionTimeoutMin
  minimum_le : config.electionTimeoutMin <= config.electionTimeoutMax

theorem paced_of_valid {config : RaftConfig}
    (hvalid : RaftNode.validateConfig config = .ok ()) : Paced config := by
  unfold RaftNode.validateConfig at hvalid
  split at hvalid
  · cases hvalid
  · rename_i htiming
    simp only [not_or, not_le, not_lt] at htiming
    exact ⟨htiming.left, htiming.right.right.right, htiming.right.right.left⟩

def Drawn (config : RaftConfig) (timeout : Int) : Prop :=
  config.electionTimeoutMin <= timeout ∧ timeout <= config.electionTimeoutMax

theorem drawn_uniformInt [RandomEngine random] [LawfulRandomEngine random]
    {config : RaftConfig} (h : Paced config) (engine : random) :
    Drawn config (RandomEngine.uniformInt config.electionTimeoutMin
      config.electionTimeoutMax engine).1 :=
  ⟨LawfulRandomEngine.minimum_le_uniformInt _ _ _ h.minimum_le,
    LawfulRandomEngine.uniformInt_le_maximum _ _ _ h.minimum_le⟩

structure StartsElection (n n' : RaftNode storage random) : Prop where
  term : n'.currentTerm = n.currentTerm + 1
  vote : n'.votedFor = some n.config.nodeId
  active : n'.state ≠ .follower

/-!
# What messages do to the clock
-/

def Renews (n : RaftNode storage random) (sender : NodeId) : Rpc -> Prop
  | .requestVoteRequest request => Grants n sender request
  | .appendEntriesRequest request => Fits n sender request
  | _ => False

inductive Reacts (n : RaftNode storage random) (sender : NodeId) (rpc : Rpc) :
    Clock -> Prop where
  | kept (hquiet : ¬ Renews n sender rpc) : Reacts n sender rpc n.clock
  | elected (hquiet : ¬ Renews n sender rpc) (hstate : n.state = .candidate) :
      Reacts n sender rpc { n.clock with state := .leader, heartbeatElapsed := 0 }
  | renewed {timeout : Int} (hrenews : Renews n sender rpc)
      (hdrawn : Drawn n.config timeout) :
      Reacts n sender rpc
        { n.clock with electionElapsed := 0, electionTimeout := timeout }
  | followed {timeout : Int} (hrenews : Renews n sender rpc)
      (hdrawn : Drawn n.config timeout) :
      Reacts n sender rpc (Clock.anew timeout)

theorem preserves_clock_broadcast :
    Preserves RaftNode.clock
      (broadcastAppendEntriesLocked : NodeM storage random Unit) :=
  preserves_broadcastAppendEntriesLocked fun _ _ _ => rfl

theorem preserves_clock_handleAppendEntriesResponseLocked (sender : NodeId)
    (response : AppendEntriesResponse) :
    Preserves RaftNode.clock (handleAppendEntriesResponseLocked sender response :
      NodeM storage random Unit) :=
  preserves_handleAppendEntriesResponseLocked (fun _ _ _ _ _ _ _ _ => rfl) sender
    response

section Storage

variable [RaftStorage storage]

def RaftNode.standing (n : RaftNode storage random) : Clock × Term × Option NodeId :=
  (n.clock, n.currentTerm, n.votedFor)

theorem ensures_becomeLeaderLocked_standing :
    Ensures becomeLeaderLocked n (fun _ n' => n'.standing =
      ({ n.clock with state := .leader, heartbeatElapsed := 0 }, n.currentTerm,
        n.votedFor)) := by
  have hrest : Preserves RaftNode.standing (do
      let _ <- advanceCommitIndexLocked
      broadcastAppendEntriesLocked : NodeM storage random Unit) :=
    preserves_bind (preserves_advanceCommitIndexLocked fun _ _ _ _ _ => rfl)
      fun _ => preserves_broadcastAppendEntriesLocked fun _ _ _ => rfl
  unfold becomeLeaderLocked
  simp only [ensures_bind, ensures_modify, continues_ok]
  apply ensures_persistLocked
  · intro n1 hsaved
    rcases hsaved with ⟨store, -, rfl⟩
    exact hrest _
  · intro cause n1 hfailed
    rcases hfailed with ⟨cause, store, -, rfl⟩
    rfl

theorem preserves_clock_propose (command : Command) :
    Preserves RaftNode.clock
      (RaftNode.propose command : NodeM storage random (Option LogIndex)) :=
  preserves_propose (fun _ _ _ _ _ _ _ _ => rfl) (fun _ _ => rfl) (fun _ _ => rfl)
    command

theorem clock_of_settles {request : AppendEntriesRequest} {r : Except Fault Rpc}
    (h : Settles request n r n') : n'.clock = n.clock := by
  cases h with
  | refused | violated | contained => rfl
  | spliced _ hsaved =>
      rcases hsaved with ⟨store, -, rfl⟩
      rfl
  | unsaved _ hfailed =>
      rcases hfailed with ⟨cause, store, -, rfl⟩
      rfl

section Random

variable [RandomEngine random]

/-!
# What operations do to the clock
-/

/-- What makes a node wait for a whole timeout again. -/
inductive Resets (n : RaftNode storage random) : Operation -> Prop where
  | elects {elapsed : Int}
      (hstarts : StartsElection n (outcome (RaftNode.tick elapsed) n).2) :
      Resets n (.tick elapsed)
  | adopts {op : Operation} {message : Message}
      (hdelivers : op.delivers = some message) (haddressed : Addressed n message)
      (hterm : n.currentTerm < messageTerm message) : Resets n op
  | heeds {op : Operation} {message : Message} {request : AppendEntriesRequest}
      (hdelivers : op.delivers = some message) (haddressed : Addressed n message)
      (hrpc : message.rpc = .appendEntriesRequest request)
      (hfits : Fits n message.fromNode request) : Resets n op
  | grants {op : Operation} {message : Message} {request : RequestVoteRequest}
      (hdelivers : op.delivers = some message) (haddressed : Addressed n message)
      (hrpc : message.rpc = .requestVoteRequest request)
      (hgrants : Grants n message.fromNode request) : Resets n op

inductive Passes (n : RaftNode storage random) (op : Operation) : Clock -> Prop where
  | kept (hwaited : op.waited = 0) (hresets : ¬ Resets n op) : Passes n op n.clock
  | waited {elapsed : Int} (hwaited : op.waited = elapsed)
      (hstate : n.state ≠ .leader)
      (hearly : n.electionElapsed + elapsed < n.electionTimeout)
      (hresets : ¬ Resets n op) :
      Passes n op { n.clock with electionElapsed := n.electionElapsed + elapsed }
  | beaten {elapsed : Int} (hwaited : op.waited = elapsed)
      (hstate : n.state = .leader)
      (hearly : n.heartbeatElapsed + elapsed < n.config.heartbeatInterval)
      (hresets : ¬ Resets n op) :
      Passes n op { n.clock with heartbeatElapsed := n.heartbeatElapsed + elapsed }
  | beats {elapsed : Int} (hop : op = .tick elapsed) (hbeats : Beats n elapsed)
      (hresets : ¬ Resets n op) : Passes n op { n.clock with heartbeatElapsed := 0 }
  | elected (hwaited : op.waited = 0) (hstate : n.state = .candidate)
      (hresets : ¬ Resets n op) :
      Passes n op { n.clock with state := .leader, heartbeatElapsed := 0 }
  | renewed {timeout : Int} (hwaited : op.waited = 0) (hresets : Resets n op)
      (hdrawn : Drawn n.config timeout) :
      Passes n op { n.clock with electionElapsed := 0, electionTimeout := timeout }
  | followed {timeout : Int} (hresets : Resets n op)
      (hdrawn : Drawn n.config timeout) : Passes n op (Clock.anew timeout)
  | campaigned {timeout : Int} (hstate : n.state ≠ .leader) (hresets : Resets n op)
      (hdrawn : Drawn n.config timeout) :
      Passes n op { n.clock with
        state := .candidate
        electionElapsed := 0
        electionTimeout := timeout }
  | led {timeout : Int} (hstate : n.state ≠ .leader) (hresets : Resets n op)
      (hdrawn : Drawn n.config timeout) :
      Passes n op {
        state := .leader
        electionElapsed := 0
        electionTimeout := timeout
        heartbeatElapsed := 0 }

/-!
# Ticks
-/

theorem ensures_tick_beats {elapsed : Int}
    {post : Except Fault Unit -> RaftNode storage random -> Prop}
    (hbeats : Beats n elapsed)
    (hpost : Ensures broadcastAppendEntriesLocked
      { n with heartbeatElapsed := 0 } post) :
    Ensures (RaftNode.tick elapsed) n post := by
  apply ensures_tick_cases
  · intro hnegative
    exact absurd hbeats.nonneg (not_le.mpr hnegative)
  · intro _
    exact hpost
  · intro _ _ hearly
    exact absurd hbeats hearly
  · intro helects
    exact absurd hbeats.leads helects.waits
  · intro _ hstate _
    exact absurd hbeats.leads hstate

theorem ensures_startElectionLocked_standing :
    Ensures startElectionLocked n (fun _ n' =>
      n'.standing = n.campaign.standing ∨ n'.standing =
        ({ n.campaign.clock with state := .leader, heartbeatElapsed := 0 },
          n.campaign.currentTerm, n.campaign.votedFor)) := by
  apply ensures_startElectionLocked_campaigns
  · intro n1 hsaved _
    rcases hsaved with ⟨store, -, rfl⟩
    exact ensures_mono ensures_becomeLeaderLocked_standing fun _ _ => Or.inr
  · intro n1 outbox hsaved _
    rcases hsaved with ⟨store, -, rfl⟩
    exact Or.inl rfl
  · intro cause n1 hfailed
    rcases hfailed with ⟨cause, store, -, rfl⟩
    exact Or.inl rfl

omit [RaftStorage storage] in
theorem startsElection_of_standing {clock : Clock}
    (hstanding : n'.standing =
      (clock, n.campaign.currentTerm, n.campaign.votedFor))
    (hstate : clock.state ≠ .follower) : StartsElection n n' := by
  rcases Prod.mk.inj hstanding with ⟨rfl, hdecided⟩
  rcases Prod.mk.inj hdecided with ⟨hterm, hvote⟩
  exact ⟨hterm, hvote, hstate⟩

omit [RaftStorage storage] [RandomEngine random] in
theorem not_startsElection_of_term (hterm : n'.currentTerm = n.currentTerm) :
    ¬ StartsElection n n' := by
  intro hstarts
  have hsucc := hstarts.term
  rw [hterm] at hsucc
  simp at hsucc

theorem startsElection_tick_iff {elapsed : Int} :
    StartsElection n (outcome (RaftNode.tick elapsed) n).2 <->
      Elects n elapsed := by
  suffices hcases : Ensures (RaftNode.tick elapsed) n (fun _ n' =>
      StartsElection n n' <-> Elects n elapsed) from hcases
  apply ensures_tick_cases
  · intro hnegative
    exact iff_of_false (not_startsElection_of_term rfl)
      fun helects => not_lt.mpr helects.nonneg hnegative
  · intro hbeats
    have hterm : Preserves RaftNode.currentTerm
        (broadcastAppendEntriesLocked : NodeM storage random Unit) :=
      preserves_broadcastAppendEntriesLocked fun _ _ _ => rfl
    refine ensures_mono (hterm _) ?_
    intro r n1 hsame
    exact iff_of_false (not_startsElection_of_term hsame)
      fun helects => helects.waits hbeats.leads
  · intro _ hleads _
    exact iff_of_false (not_startsElection_of_term rfl)
      fun helects => helects.waits hleads
  · intro helects
    refine ensures_mono ensures_startElectionLocked_standing ?_
    intro r n1 hstanding
    refine iff_of_true ?_ helects
    rcases hstanding with hasks | hleads
    · exact startsElection_of_standing hasks nofun
    · exact startsElection_of_standing hleads nofun
  · intro _ _ hearly
    exact iff_of_false (not_startsElection_of_term rfl) hearly

theorem resets_tick_iff {elapsed : Int} :
    Resets n (.tick elapsed) <-> Elects n elapsed := by
  rw [← startsElection_tick_iff]
  constructor
  · intro hresets
    cases hresets with
    | elects hstarts => exact hstarts
    | adopts hdelivers | heeds hdelivers | grants hdelivers => cases hdelivers
  · exact .elects

/-!
# Deliveries
-/

theorem resets_iff_of_delivers {op : Operation} {message : Message}
    (hdelivers : op.delivers = some message) :
    Resets n op <-> Addressed n message ∧ (n.currentTerm < messageTerm message ∨
      Renews n message.fromNode message.rpc) := by
  constructor
  · intro hresets
    cases hresets with
    | elects hstarts => cases hdelivers
    | adopts hdelivers' haddressed hterm =>
        cases hdelivers.symm.trans hdelivers'
        exact ⟨haddressed, Or.inl hterm⟩
    | heeds hdelivers' haddressed hrpc hfits =>
        cases hdelivers.symm.trans hdelivers'
        rw [hrpc]
        exact ⟨haddressed, Or.inr hfits⟩
    | grants hdelivers' haddressed hrpc hgrants =>
        cases hdelivers.symm.trans hdelivers'
        rw [hrpc]
        exact ⟨haddressed, Or.inr hgrants⟩
  · rintro ⟨haddressed, hterm | hrenews⟩
    · exact .adopts hdelivers haddressed hterm
    · cases hrpc : message.rpc with
      | requestVoteRequest request =>
          rw [hrpc] at hrenews
          exact .grants hdelivers haddressed hrpc hrenews
      | appendEntriesRequest request =>
          rw [hrpc] at hrenews
          exact .heeds hdelivers haddressed hrpc hrenews
      | requestVoteResponse response | appendEntriesResponse response =>
          rw [hrpc] at hrenews
          exact hrenews.elim

section Lawful

variable [LawfulRandomEngine random]

theorem reacts_of_voteEnds {sender : NodeId} {request : RequestVoteRequest}
    {r : Except Fault Rpc} (hpaced : Paced n.config)
    (hends : VoteEnds sender request n r n') :
    IfSaved (fun n' => Reacts n sender (.requestVoteRequest request) n'.clock)
      r n' := by
  cases hends with
  | denied hdenied => exact Or.inr (.kept hdenied)
  | repeated hgrants _ =>
      exact Or.inr (.renewed hgrants (drawn_uniformInt hpaced n.random))
  | granted hgrants _ hsaved =>
      rcases hsaved with ⟨store, -, rfl⟩
      exact Or.inr (.renewed hgrants (drawn_uniformInt hpaced n.random))
  | @unsaved cause _ _ _ _ => exact Or.inl ⟨cause, rfl⟩

theorem reacts_of_appendEnds {sender : NodeId} {request : AppendEntriesRequest}
    {r : Except Fault Rpc} (hpaced : Paced n.config)
    (hends : AppendEnds sender request n r n') :
    IfSaved (fun n' => Reacts n sender (.appendEntriesRequest request) n'.clock)
      r n' := by
  cases hends with
  | unfit hunfit => exact Or.inr (.kept hunfit)
  | settled hfits hsettles =>
      right
      show Reacts n sender _ n'.clock
      rw [clock_of_settles hsettles]
      unfold RaftNode.heed
      split
      · exact .followed hfits (drawn_uniformInt hpaced n.random)
      · exact .renewed hfits (drawn_uniformInt hpaced n.random)

theorem ensures_dispatch_reacts {sender : NodeId} {rpc : Rpc} (h : WellFormed n)
    (hpaced : Paced n.config) :
    Ensures (dispatch sender rpc) n
      (IfSaved fun n' => Reacts n sender rpc n'.clock) := by
  cases rpc with
  | requestVoteResponse response =>
      show Ensures (handleRequestVoteResponseLocked sender response) n _
      unfold handleRequestVoteResponseLocked
      rw [ensures_bind, ensures_get, continues_ok]
      split
      · exact Or.inr (.kept id)
      · rename_i hvalid
        rw [not_or, not_not] at hvalid
        simp only [ensures_bind, ensures_modify, ensures_get, continues_ok]
        split
        · refine ensures_mono ensures_becomeLeaderLocked_standing ?_
          intro r n1 hstanding
          right
          show Reacts n sender _ n1.clock
          rw [(Prod.mk.inj hstanding).left]
          exact .elected id hvalid.left
        · exact Or.inr (.kept id)
  | appendEntriesResponse response =>
      refine ensures_ifSaved_of_preserves
        (preserves_clock_handleAppendEntriesResponseLocked sender response) ?_
      intro n1 hclock
      rw [hclock]
      exact .kept id
  | requestVoteRequest request =>
      refine ensures_mono ensures_handleRequestVoteLocked_ends ?_
      intro r n1 hqueues
      exact ifSaved_of_queues (fun _ _ hreacts => hreacts)
        (fun _ _ => reacts_of_voteEnds hpaced) hqueues
  | appendEntriesRequest request =>
      refine ensures_mono
        (ensures_handleAppendEntriesLocked_ends h.applied h.committed) ?_
      intro r n1 hqueues
      exact ifSaved_of_queues (fun _ _ hreacts => hreacts)
        (fun _ _ => reacts_of_appendEnds hpaced) hqueues

theorem waited_of_delivers {op : Operation} {message : Message}
    (hdelivers : op.delivers = some message) : op.waited = 0 := by
  cases op with
  | tick elapsed => cases hdelivers
  | step | handleRequest | propose | takeMessages | takeCommittedEntries => rfl

theorem passes_of_reacts {op : Operation} {message : Message}
    {entered : RaftNode storage random} {clock : Clock} (hpaced : Paced n.config)
    (hdelivers : op.delivers = some message) (haddressed : Addressed n message)
    (henters : Enters message n entered)
    (hreacts : Reacts entered message.fromNode message.rpc clock) :
    Passes n op clock := by
  have hwaited := waited_of_delivers hdelivers
  have hresets := resets_iff_of_delivers (n := n) hdelivers
  cases henters with
  | current hterm =>
      have hquiet : ¬ Renews n message.fromNode message.rpc -> ¬ Resets n op := by
        intro hquiet hresets'
        rcases (hresets.mp hresets').right with hhigher | hrenews
        · exact not_lt.mpr hterm hhigher
        · exact hquiet hrenews
      have hrenews : Renews n message.fromNode message.rpc -> Resets n op :=
        fun hrenews => hresets.mpr ⟨haddressed, Or.inr hrenews⟩
      cases hreacts with
      | kept h => exact .kept hwaited (hquiet h)
      | elected h hstate => exact .elected hwaited hstate (hquiet h)
      | renewed h hdrawn => exact .renewed hwaited (hrenews h) hdrawn
      | followed h hdrawn => exact .followed (hrenews h) hdrawn
  | adopted hterm hsaved =>
      have hadopts := hresets.mpr ⟨haddressed, Or.inl hterm⟩
      rcases hsaved with ⟨store, -, rfl⟩
      cases hreacts with
      | kept => exact .followed hadopts (drawn_uniformInt hpaced n.random)
      | elected _ hstate => cases hstate
      | renewed _ hdrawn => exact .followed hadopts hdrawn
      | followed _ hdrawn => exact .followed hadopts hdrawn

omit [LawfulRandomEngine random] in
theorem passes_of_clock {op : Operation} {n1 n2 : RaftNode storage random}
    (hpasses : Passes n op n1.clock) (hclock : n2.clock = n1.clock) :
    Passes n op n2.clock := by
  rw [hclock]
  exact hpasses

theorem ensures_stepLocked_passes {op : Operation} {message : Message}
    (h : WellFormed n) (hpaced : Paced n.config)
    (hdelivers : op.delivers = some message) :
    Ensures (stepLocked message) n (IfSaved fun n' => Passes n op n'.clock) := by
  apply ensures_stepLocked_enters
  · intro hstranger
    refine Or.inr (.kept (waited_of_delivers hdelivers) ?_)
    intro hresets
    exact hstranger ((resets_iff_of_delivers hdelivers).mp hresets).left
  · intro cause n1 _ _ _
    exact Or.inl ⟨cause, rfl⟩
  · intro entered haddressed henters
    have hpaced' : Paced entered.config := by
      rw [henters.same.left]
      exact hpaced
    have hdispatch : Ensures (dispatch message.fromNode message.rpc) entered
        (IfSaved fun n' => Passes n op n'.clock) := by
      refine ensures_mono (ensures_dispatch_reacts (henters.wellFormed h) hpaced') ?_
      intro r n1 hreacts
      exact hreacts.imp id (passes_of_reacts hpaced hdelivers haddressed henters)
    exact ensures_ifSaved_bind (fun _ _ => passes_of_clock) hdispatch
      fun _ => preserves_pure true

/-!
# One operation
-/

theorem ensures_tick_passes {elapsed : Int} (hpaced : Paced n.config) :
    Ensures (RaftNode.tick elapsed) n
      (IfSaved fun n' => Passes n (.tick elapsed) n'.clock) := by
  have hresets : Resets n (.tick elapsed) <-> Elects n elapsed := resets_tick_iff
  have hwaited : 0 <= elapsed -> (Operation.tick elapsed).waited = elapsed :=
    fun hnonneg => if_neg (not_lt.mpr hnonneg)
  apply ensures_tick_cases
  · intro hnegative
    refine Or.inr (.kept (if_pos hnegative) ?_)
    intro h
    exact not_lt.mpr (hresets.mp h).nonneg hnegative
  · intro hbeats
    refine ensures_ifSaved_of_preserves preserves_clock_broadcast ?_
    intro n1 hclock
    rw [hclock]
    exact .beats rfl hbeats fun h => (hresets.mp h).waits hbeats.leads
  · intro hnonneg hleads hearly
    have hsum : n.heartbeatElapsed + elapsed < n.config.heartbeatInterval := by
      by_contra hdue
      exact hearly ⟨hnonneg, hleads, by lia⟩
    exact Or.inr (.beaten (hwaited hnonneg) hleads hsum
      fun h => (hresets.mp h).waits hleads)
  · intro helects
    have hdrawn : Drawn n.config n.campaign.electionTimeout :=
      drawn_uniformInt hpaced n.random
    refine ensures_mono ensures_startElectionLocked_standing ?_
    intro r n1 hstanding
    right
    show Passes n _ n1.clock
    rcases hstanding with hasks | hleads
    · rw [(Prod.mk.inj hasks).left]
      exact .campaigned helects.waits (hresets.mpr helects) hdrawn
    · rw [(Prod.mk.inj hleads).left]
      exact .led helects.waits (hresets.mpr helects) hdrawn
  · intro hnonneg hstate hearly
    have hsum : n.electionElapsed + elapsed < n.electionTimeout := by
      by_contra hdue
      exact hearly ⟨hnonneg, hstate, by lia⟩
    exact Or.inr (.waited (hwaited hnonneg) hstate hsum
      fun h => hearly (hresets.mp h))

theorem passes_perform {op : Operation} (h : WellFormed n) (hpaced : Paced n.config)
    (hsaves : SavesSucceed n op) : Passes n op (outcome op.perform n).2.clock := by
  have hquiet : op.delivers = none -> (forall elapsed, op ≠ .tick elapsed) ->
      ¬ Resets n op := by
    intro hnone htick hresets
    cases hresets with
    | elects => exact htick _ rfl
    | adopts hdelivers | heeds hdelivers | grants hdelivers =>
        rw [hnone] at hdelivers
        cases hdelivers
  refine perform_ifSaved (fun n' => Passes n op n'.clock)
    (fun _ _ => passes_of_clock) (fun _ _ _ => rfl) ?_ ?_ ?_ ?_ hsaves
  · rintro elapsed rfl
    exact ensures_tick_passes hpaced
  · intro message hdelivers
    exact ensures_stepLocked_passes h hpaced hdelivers
  · rintro command rfl
    refine ensures_ifSaved_of_preserves (preserves_clock_propose command) ?_
    intro n1 hclock
    rw [hclock]
    exact .kept rfl (hquiet rfl nofun)
  · intro hidle
    cases op with
    | tick | step | propose => exact hidle.elim
    | handleRequest message => exact .kept rfl (hquiet (if_pos hidle) nofun)
    | takeMessages => exact .kept rfl (hquiet rfl nofun)
    | takeCommittedEntries => exact .kept rfl (hquiet rfl nofun)

end Lawful

/-!
# The counters stay below their bounds
-/

structure Timed (config : RaftConfig) (clock : Clock) : Prop where
  elapsed_nonneg : 0 <= clock.electionElapsed
  elapsed_lt : clock.electionElapsed < clock.electionTimeout
  timeout_drawn : Drawn config clock.electionTimeout
  heartbeat_nonneg : 0 <= clock.heartbeatElapsed
  heartbeat_lt : clock.heartbeatElapsed < config.heartbeatInterval

theorem waited_nonneg (op : Operation) : 0 <= op.waited := by
  cases op with
  | tick elapsed =>
      show 0 <= if elapsed < 0 then 0 else elapsed
      split
      · exact le_refl _
      · rename_i hnonneg
        exact not_lt.mp hnonneg
  | step | handleRequest | propose | takeMessages | takeCommittedEntries =>
      exact le_refl _

theorem Drawn.pos {config : RaftConfig} {timeout : Int} (h : Drawn config timeout)
    (hpaced : Paced config) : 0 < timeout := by
  rcases h with ⟨hminimum, -⟩
  rcases hpaced with ⟨hpositive, hlt, -⟩
  lia

theorem timed_passes {op : Operation} {clock : Clock} (hpaced : Paced n.config)
    (h : Timed n.config n.clock) (hpasses : Passes n op clock) :
    Timed n.config clock := by
  have hbeat := hpaced.heartbeat_pos
  have hnonneg := waited_nonneg op
  cases hpasses with
  | kept => exact h
  | waited hwaited _ hearly _ =>
      rw [hwaited] at hnonneg
      exact ⟨Int.add_nonneg h.elapsed_nonneg hnonneg, hearly, h.timeout_drawn,
        h.heartbeat_nonneg, h.heartbeat_lt⟩
  | beaten hwaited _ hearly _ =>
      rw [hwaited] at hnonneg
      exact ⟨h.elapsed_nonneg, h.elapsed_lt, h.timeout_drawn,
        Int.add_nonneg h.heartbeat_nonneg hnonneg, hearly⟩
  | beats | elected =>
      exact ⟨h.elapsed_nonneg, h.elapsed_lt, h.timeout_drawn, le_refl _, hbeat⟩
  | renewed _ _ hdrawn =>
      exact ⟨le_refl _, hdrawn.pos hpaced, hdrawn, h.heartbeat_nonneg,
        h.heartbeat_lt⟩
  | campaigned _ _ hdrawn =>
      exact ⟨le_refl _, hdrawn.pos hpaced, hdrawn, h.heartbeat_nonneg,
        h.heartbeat_lt⟩
  | followed _ hdrawn | led _ _ hdrawn =>
      exact ⟨le_refl _, hdrawn.pos hpaced, hdrawn, le_refl _, hbeat⟩

def Signed64 (value : Int) : Prop :=
  -9223372036854775808 <= value ∧ value < 9223372036854775808

/-- What `tick` computes, each value on the branch that computes it. -/
structure Computes64 (n : RaftNode storage random) (elapsed : Int) : Prop where
  heartbeat_left : Signed64 (n.config.heartbeatInterval - n.heartbeatElapsed)
  heartbeat_sum : n.state = .leader -> ¬ Beats n elapsed ->
    Signed64 (n.heartbeatElapsed + elapsed)
  election_left : Signed64 (n.electionTimeout - n.electionElapsed)
  election_sum : n.state ≠ .leader -> ¬ Elects n elapsed ->
    Signed64 (n.electionElapsed + elapsed)

omit [RaftStorage storage] [RandomEngine random] in
theorem computes64_of_timed {elapsed : Int} (hpaced : Paced n.config)
    (h : Timed n.config n.clock)
    (hmaximum : n.config.electionTimeoutMax < 9223372036854775808)
    (hnonneg : 0 <= elapsed) : Computes64 n elapsed := by
  rcases h with ⟨helapsed, hlt, ⟨hminimum, hle⟩, hheartbeat, hheartbeat_lt⟩
  rcases hpaced with ⟨hpositive, hbelow, -⟩
  simp only [RaftNode.clock] at helapsed hlt hminimum hle hheartbeat hheartbeat_lt
  constructor
  · constructor <;> lia
  · intro hleads hearly
    have hsum : n.heartbeatElapsed + elapsed < n.config.heartbeatInterval := by
      by_contra hdue
      exact hearly ⟨hnonneg, hleads, by lia⟩
    constructor <;> lia
  · constructor <;> lia
  · intro hstate hearly
    have hsum : n.electionElapsed + elapsed < n.electionTimeout := by
      by_contra hdue
      exact hearly ⟨hnonneg, hstate, by lia⟩
    constructor <;> lia

/-!
# Between two resets
-/

/-- What makes a leader count its heartbeats from zero. -/
inductive Rewinds (n : RaftNode storage random) (op : Operation) : Prop where
  | becomes (hstate : n.state ≠ .leader)
      (hleads : (outcome op.perform n).2.state = .leader)
  | beats {elapsed : Int} (hop : op = .tick elapsed) (hbeats : Beats n elapsed)

theorem elapsed_of_resets {op : Operation} {clock : Clock}
    (hpasses : Passes n op clock) (hresets : Resets n op) :
    clock.electionElapsed = 0 := by
  cases hpasses with
  | renewed | followed | campaigned | led => rfl
  | kept _ hquiet => exact absurd hresets hquiet
  | waited _ _ _ hquiet | beaten _ _ _ hquiet => exact absurd hresets hquiet
  | beats _ _ hquiet | elected _ _ hquiet => exact absurd hresets hquiet

structure Counts (clock : Clock) (elapsed : Int) (clock' : Clock) : Prop where
  timeout : clock'.electionTimeout = clock.electionTimeout
  leads : clock.state = .leader -> clock'.state = .leader
  elapsed : clock'.state ≠ .leader ->
    clock'.electionElapsed = clock.electionElapsed + elapsed

theorem counts_refl (clock : Clock) : Counts clock 0 clock :=
  ⟨rfl, id, fun _ => (Int.add_zero _).symm⟩

theorem counts_trans {first second third : Clock} {elapsed more : Int}
    (h : Counts first elapsed second) (h' : Counts second more third) :
    Counts first (elapsed + more) third := by
  refine ⟨h'.timeout.trans h.timeout, fun hleads => h'.leads (h.leads hleads), ?_⟩
  intro hstate
  rw [h'.elapsed hstate, h.elapsed fun hleads => hstate (h'.leads hleads),
    Int.add_assoc]

theorem counts_passes {op : Operation} {clock : Clock} (hpasses : Passes n op clock)
    (hquiet : ¬ Resets n op) : Counts n.clock op.waited clock := by
  cases hpasses with
  | kept hwaited =>
      rw [hwaited]
      exact counts_refl _
  | waited hwaited =>
      rw [hwaited]
      exact ⟨rfl, id, fun _ => rfl⟩
  | beaten _ hleads => exact ⟨rfl, id, absurd hleads⟩
  | beats _ hbeats => exact ⟨rfl, id, absurd hbeats.leads⟩
  | elected => exact ⟨rfl, fun _ => rfl, absurd rfl⟩
  | renewed _ hresets | followed hresets => exact absurd hresets hquiet
  | campaigned _ hresets | led _ hresets => exact absurd hresets hquiet

theorem heartbeat_of_leads {op : Operation} {clock : Clock}
    (hpasses : Passes n op clock) (hstate : n.state ≠ .leader)
    (hleads : clock.state = .leader) : clock.heartbeatElapsed = 0 := by
  cases hpasses with
  | elected | led | beats | followed => rfl
  | kept | waited | renewed => exact absurd hleads hstate
  | beaten _ hleads' => exact absurd hleads' hstate
  | campaigned => cases hleads

theorem heartbeat_of_quiet {op : Operation} {clock : Clock}
    (hpasses : Passes n op clock) (hstate : n.state = .leader)
    (hleads : clock.state = .leader)
    (hquiet : forall elapsed, op = .tick elapsed -> ¬ Beats n elapsed) :
    clock.heartbeatElapsed = n.heartbeatElapsed + op.waited := by
  cases hpasses with
  | kept hwaited | renewed hwaited =>
      rw [hwaited]
      exact (Int.add_zero _).symm
  | beaten hwaited =>
      rw [hwaited]
  | beats hop hbeats => exact absurd hbeats (hquiet _ hop)
  | waited _ hstate' => exact absurd hstate hstate'
  | campaigned hstate' | led hstate' => exact absurd hstate hstate'
  | elected _ hcandidate =>
      rw [hstate] at hcandidate
      cases hcandidate
  | followed => cases hleads

theorem clock_of_beats {elapsed : Int} (hbeats : Beats n elapsed) :
    (outcome (Operation.tick elapsed).perform n).2.clock =
      { n.clock with heartbeatElapsed := 0 } := by
  have htick : Ensures (RaftNode.tick elapsed) n (fun _ n' =>
      n'.clock = { n.clock with heartbeatElapsed := 0 }) :=
    ensures_tick_beats hbeats (preserves_clock_broadcast _)
  simp only [Operation.perform, outcome_bind_pure]
  exact htick

/-!
# Broadcasts
-/

def SendsTo (peers : List NodeId) (n n' : RaftNode storage random) : Prop :=
  exists requests : List Message, n'.outbox = n.outbox ++ requests ∧
    requests.map Message.toNode = peers ∧
    forall message, message ∈ requests -> message.fromNode = n.config.nodeId ∧
      exists request, message.rpc = .appendEntriesRequest request ∧
        request.term = n.currentTerm ∧ request.leaderId = n.config.nodeId

section Sending

omit [RaftStorage storage] [RandomEngine random]

/-- The loop over the peers, for a relation that one request after the other builds up. -/
theorem ensures_forM_sends {peers : List NodeId}
    (post : List NodeId -> RaftNode storage random -> RaftNode storage random -> Prop)
    (hnil : forall n, post [] n n)
    (hcons : forall {n n' : RaftNode storage random} {peer : NodeId} {rest : List NodeId}
      {previous : LogIndex} {entry : LogEntry},
      n.nextIndex peer = some (previous + 1) -> n.log.at? previous = some entry ->
      post rest (n.withRequest peer previous entry.term) n' -> post (peer :: rest) n n')
    (hready : forall peer, peer ∈ peers -> exists previous entry,
      n.nextIndex peer = some (previous + 1) ∧ n.log.at? previous = some entry) :
    Ensures (peers.forM sendAppendEntriesLocked) n (fun _ n' => post peers n n') := by
  induction peers generalizing n with
  | nil => exact hnil n
  | cons peer rest ih =>
      rcases hready peer (List.mem_cons_self ..) with
        ⟨previous, entry, hnext, hentry⟩
      change Ensures (sendAppendEntriesLocked peer >>= fun _ =>
        rest.forM sendAppendEntriesLocked) n _
      rw [ensures_bind]
      apply ensures_sendAppendEntriesLocked_sends hnext hentry
      rw [continues_ok]
      have hrest := @ih (n.withRequest peer previous entry.term)
        fun other hother => hready other (List.mem_cons_of_mem _ hother)
      apply ensures_mono hrest
      intro r n' hpost
      exact hcons hnext hentry hpost

theorem sendsTo_cons {peer : NodeId} {rest : List NodeId} {previous : LogIndex}
    {entry : LogEntry} (hsends : SendsTo rest (n.withRequest peer previous entry.term) n') :
    SendsTo (peer :: rest) n n' := by
  rcases hsends with ⟨requests, houtbox, hpeers, hrequests⟩
  refine ⟨⟨n.config.nodeId, peer, .appendEntriesRequest
    (n.requestBehind peer previous entry.term)⟩ :: requests, ?_, ?_, ?_⟩
  · rw [houtbox]
    exact List.append_assoc _ [_] _
  · rw [List.map_cons, hpeers]
  · intro message hmessage
    rcases List.mem_cons.mp hmessage with rfl | hmore
    · exact ⟨rfl, _, rfl, rfl, rfl⟩
    · exact hrequests message hmore

theorem exists_next (h : WellFormed n) (hleads : n.state = .leader) {peer : NodeId}
    (hpeer : peer ∈ n.config.peers) : exists previous entry,
      n.nextIndex peer = some (previous + 1) ∧ n.log.at? previous = some entry := by
  rcases h.tracked hleads peer hpeer with
    ⟨next, reached, requestId, hnext, -, -, hlow, hhigh⟩
  cases next with
  | zero => cases hlow
  | succ previous =>
      rcases Log.at?_isSome (Nat.le_of_succ_le_succ hhigh) with ⟨entry, hentry⟩
      exact ⟨previous, entry, hnext, hentry⟩

theorem ensures_broadcastAppendEntriesLocked_sends (h : WellFormed n)
    (hleads : n.state = .leader) :
    Ensures broadcastAppendEntriesLocked n
      (fun _ n' => SendsTo n.config.peers n n') := by
  unfold broadcastAppendEntriesLocked
  rw [ensures_bind, ensures_get, continues_ok]
  apply ensures_forM_sends SendsTo
  · intro n
    exact ⟨[], (List.append_nil _).symm, rfl, nofun⟩
  · intro n n' peer rest previous entry _ _ hsends
    exact sendsTo_cons hsends
  · intro peer hpeer
    exact exists_next h hleads hpeer

end Sending

theorem outbox_of_tick (h : WellFormed n) (hleads : n.state = .leader)
    (elapsed : Int) :
    (Beats n elapsed ->
      SendsTo n.config.peers n (outcome (RaftNode.tick elapsed) n).2) ∧
    (¬ Beats n elapsed ->
      (outcome (RaftNode.tick elapsed) n).2.outbox = n.outbox) := by
  constructor
  · intro hbeats
    have htimer : Volatile (Operation.takeMessages.call n) n
        { n with heartbeatElapsed := 0 } :=
      .timer n.random n.electionTimeout n.electionElapsed 0
    exact ensures_tick_beats hbeats (ensures_broadcastAppendEntriesLocked_sends
      (wellFormed_volatile h htimer) hleads)
  · intro hquiet
    suffices hkept : Ensures (RaftNode.tick elapsed) n
        (fun _ n' => n'.outbox = n.outbox) from hkept
    apply ensures_tick_cases
    · intro _
      rfl
    · intro hbeats
      exact absurd hbeats hquiet
    · intro _ _ _
      rfl
    · intro helects
      exact absurd hleads helects.waits
    · intro _ _ _
      rfl

/-!
# Whole runs
-/

def EndsWith (event : RaftNode storage random -> Operation -> Prop)
    (node : RaftNode storage random) (ops : List Operation) : Prop :=
  exists earlier op, ops = earlier ++ [op] ∧ event (node.after earlier) op

theorem exists_last (event : RaftNode storage random -> Operation -> Prop)
    (node : RaftNode storage random) (ops : List Operation) :
    exists before since, ops = before ++ since ∧
      (before = [] ∨ EndsWith event node before) ∧
      RaftNode.Throughout (fun n op => ¬ event n op) (node.after before) since := by
  induction ops using List.reverseRecOn with
  | nil => exact ⟨[], [], rfl, Or.inl rfl, trivial⟩
  | append_singleton ops op ih =>
      by_cases hevent : event (node.after ops) op
      · exact ⟨ops ++ [op], [], (List.append_nil _).symm,
          Or.inr ⟨ops, op, rfl, hevent⟩, trivial⟩
      · rcases ih with ⟨before, since, rfl, hends, hquiet⟩
        refine ⟨before, since ++ [op], List.append_assoc .., hends, ?_⟩
        rw [throughout_append]
        rw [after_append] at hevent
        exact ⟨hquiet, hevent, trivial⟩

variable [LawfulRandomEngine random]

theorem passes_first {op : Operation} {rest : List Operation} (h : WellFormed n)
    (hpaced : Paced n.config)
    (hsaves : RaftNode.Throughout SavesSucceed n (op :: rest)) :
    Passes n op (outcome op.perform n).2.clock ∧
      WellFormed (outcome op.perform n).2 ∧
      (outcome op.perform n).2.config = n.config :=
  ⟨passes_perform h hpaced hsaves.left, (perform_spec h op).left,
    config_after h [op]⟩

theorem timed_after (h : WellFormed n) (hpaced : Paced n.config)
    (htimed : Timed n.config n.clock) (ops : List Operation)
    (hsaves : RaftNode.Throughout SavesSucceed n ops) :
    Timed n.config (n.after ops).clock := by
  induction ops generalizing n with
  | nil => exact htimed
  | cons op rest ih =>
      rcases passes_first h hpaced hsaves with ⟨hpasses, hwell, hconfig⟩
      rw [← hconfig] at hpaced ⊢
      apply ih hwell hpaced _ hsaves.right
      rw [hconfig] at hpaced ⊢
      exact timed_passes hpaced htimed hpasses

theorem counts_after (h : WellFormed n) (hpaced : Paced n.config)
    (ops : List Operation) (hsaves : RaftNode.Throughout SavesSucceed n ops)
    (hquiet : RaftNode.Throughout (fun n op => ¬ Resets n op) n ops) :
    Counts n.clock (waited ops) (n.after ops).clock := by
  induction ops generalizing n with
  | nil => exact counts_refl _
  | cons op rest ih =>
      rcases passes_first h hpaced hsaves with ⟨hpasses, hwell, hconfig⟩
      rw [← hconfig] at hpaced
      exact counts_trans (counts_passes hpasses hquiet.left)
        (ih hwell hpaced hsaves.right hquiet.right)

theorem heartbeat_after (h : WellFormed n) (hpaced : Paced n.config)
    (ops : List Operation) (hsaves : RaftNode.Throughout SavesSucceed n ops)
    (hquiet : RaftNode.Throughout (fun n op => ¬ Rewinds n op) n ops)
    (hleads : (n.after ops).state = .leader) :
    n.state = .leader ∧
      (n.after ops).heartbeatElapsed = n.heartbeatElapsed + waited ops := by
  induction ops generalizing n with
  | nil => exact ⟨hleads, (Int.add_zero _).symm⟩
  | cons op rest ih =>
      rcases passes_first h hpaced hsaves with ⟨hpasses, hwell, hconfig⟩
      rw [← hconfig] at hpaced
      rcases ih hwell hpaced hsaves.right hquiet.right hleads with
        ⟨hleads', hheartbeat⟩
      have hstate : n.state = .leader := by
        by_contra hstate
        exact hquiet.left (.becomes hstate hleads')
      refine ⟨hstate, hheartbeat.trans ?_⟩
      have hfirst := heartbeat_of_quiet hpasses hstate hleads'
        fun elapsed hop hbeats => hquiet.left (.beats hop hbeats)
      change (outcome op.perform n).2.heartbeatElapsed = _ at hfirst
      rw [hfirst, Int.add_assoc]
      rfl

theorem elapsed_of_endsWith {before : List Operation} (h : WellFormed n)
    (hpaced : Paced n.config)
    (hsaves : RaftNode.Throughout SavesSucceed n before)
    (hends : EndsWith Resets n before) : (n.after before).electionElapsed = 0 := by
  rcases hends with ⟨earlier, op, rfl, hresets⟩
  rw [throughout_append] at hsaves
  rw [after_append]
  have hpaced' : Paced (n.after earlier).config := by
    rw [config_after h]
    exact hpaced
  exact elapsed_of_resets
    (passes_perform (wellFormed_after h earlier) hpaced' hsaves.right.left) hresets

theorem heartbeat_of_endsWith {before : List Operation} (h : WellFormed n)
    (hpaced : Paced n.config)
    (hsaves : RaftNode.Throughout SavesSucceed n before)
    (hends : EndsWith Rewinds n before) : (n.after before).heartbeatElapsed = 0 := by
  rcases hends with ⟨earlier, op, rfl, hrewinds⟩
  rw [throughout_append] at hsaves
  rw [after_append]
  have hpaced' : Paced (n.after earlier).config := by
    rw [config_after h]
    exact hpaced
  cases hrewinds with
  | becomes hstate hleads =>
      exact heartbeat_of_leads
        (passes_perform (wellFormed_after h earlier) hpaced' hsaves.right.left)
        hstate hleads
  | beats hop hbeats =>
      rw [hop]
      exact congrArg Clock.heartbeatElapsed (clock_of_beats hbeats)

theorem elects_iff {before since : List Operation} {elapsed : Int}
    (h : WellFormed n) (hpaced : Paced n.config)
    (hsaves : RaftNode.Throughout SavesSucceed n (before ++ since))
    (hzero : (n.after before).electionElapsed = 0)
    (hquiet : RaftNode.Throughout (fun n op => ¬ Resets n op) (n.after before) since)
    (hnonneg : 0 <= elapsed) (hstate : (n.after (before ++ since)).state ≠ .leader) :
    Elects (n.after (before ++ since)) elapsed <->
      (n.after before).electionTimeout <= waited since + elapsed := by
  have hpaced' : Paced (n.after before).config := by
    rw [config_after h]
    exact hpaced
  have hcounts := counts_after (wellFormed_after h before) hpaced' since
    (throughout_append.mp hsaves).right hquiet
  rw [after_append] at hstate ⊢
  have htimeout : ((n.after before).after since).electionTimeout =
      (n.after before).electionTimeout := hcounts.timeout
  have helapsed : ((n.after before).after since).electionElapsed =
      (n.after before).electionElapsed + waited since := hcounts.elapsed hstate
  rw [hzero, Int.zero_add] at helapsed
  constructor
  · intro helects
    have hdue := helects.due
    rw [htimeout, helapsed] at hdue
    lia
  · intro hdue
    refine ⟨hnonneg, hstate, ?_⟩
    rw [htimeout, helapsed]
    lia

theorem beats_iff {before since : List Operation} {elapsed : Int}
    (h : WellFormed n) (hpaced : Paced n.config)
    (hsaves : RaftNode.Throughout SavesSucceed n (before ++ since))
    (hends : EndsWith Rewinds n before)
    (hquiet : RaftNode.Throughout (fun n op => ¬ Rewinds n op) (n.after before) since)
    (hnonneg : 0 <= elapsed) (hleads : (n.after (before ++ since)).state = .leader) :
    Beats (n.after (before ++ since)) elapsed <->
      n.config.heartbeatInterval <= waited since + elapsed := by
  have hpaced' : Paced (n.after before).config := by
    rw [config_after h]
    exact hpaced
  rw [throughout_append] at hsaves
  have hconfig := config_after h (before ++ since)
  rw [after_append] at hleads hconfig ⊢
  have hheartbeat := (heartbeat_after (wellFormed_after h before) hpaced' since
    hsaves.right hquiet hleads).right
  rw [heartbeat_of_endsWith h hpaced hsaves.left hends, Int.zero_add] at hheartbeat
  constructor
  · intro hbeats
    have hdue := hbeats.due
    rw [hconfig, hheartbeat] at hdue
    lia
  · intro hdue
    refine ⟨hnonneg, hleads, ?_⟩
    rw [hconfig, hheartbeat]
    lia

theorem anew_of_create {config : RaftConfig} {store : storage}
    (hpaced : Paced config) (hcreate : RaftNode.create config store = .ok n) :
    exists timeout, Drawn config timeout ∧ n.clock = Clock.anew timeout := by
  rcases create_eq_ok_iff.mp hcreate with ⟨persisted, -, rfl⟩
  exact ⟨_, drawn_uniformInt hpaced _, rfl⟩

/--
The timers of a node whose saves succeed.  Both counters stay below what `tick`
compares them with, so that none of its sums and differences leaves the range of
the configuration.  A node that does not lead starts an election at a tick exactly
when the ticks since the last reset of its timer have reached the timeout of that
reset.  A leader broadcasts at a tick exactly when the ticks since it began to
lead, or since it last broadcast at a tick, have reached the heartbeat interval.
-/
theorem timers_keep_time {config : RaftConfig} {store : storage}
    {node : RaftNode storage random}
    (hcreate : RaftNode.create config store = .ok node) (ops : List Operation)
    (hsaves : RaftNode.Throughout SavesSucceed node ops) :
    Timed config (node.after ops).clock ∧
    (config.electionTimeoutMax < 9223372036854775808 ->
      forall elapsed, 0 <= elapsed -> Computes64 (node.after ops) elapsed) ∧
    (exists before since, ops = before ++ since ∧
      (before = [] ∨ EndsWith Resets node before) ∧
      RaftNode.Throughout (fun n op => ¬ Resets n op) (node.after before) since ∧
      forall elapsed, 0 <= elapsed -> (node.after ops).state ≠ .leader ->
        (StartsElection (node.after ops)
            (outcome (RaftNode.tick elapsed) (node.after ops)).2 <->
          (node.after before).electionTimeout <= waited since + elapsed)) ∧
    ((node.after ops).state = .leader -> exists before since,
      ops = before ++ since ∧ EndsWith Rewinds node before ∧
      RaftNode.Throughout (fun n op => ¬ Rewinds n op) (node.after before) since ∧
      forall elapsed, 0 <= elapsed ->
        (Beats (node.after ops) elapsed <->
          config.heartbeatInterval <= waited since + elapsed) ∧
        (Beats (node.after ops) elapsed -> SendsTo config.peers (node.after ops)
          (outcome (RaftNode.tick elapsed) (node.after ops)).2) ∧
        (¬ Beats (node.after ops) elapsed ->
          (outcome (RaftNode.tick elapsed) (node.after ops)).2.outbox =
            (node.after ops).outbox)) := by
  have hfresh := fresh_of_create hcreate
  have hwell := hfresh.well
  have hafter := wellFormed_after hwell ops
  have hpaced := paced_of_valid (accepted_of_create hcreate).valid
  rcases anew_of_create hpaced hcreate with ⟨timeout, hdrawn, hclock⟩
  have hconfig := hfresh.config_eq
  subst hconfig
  have hconfig := config_after hwell ops
  have htimed : Timed node.config (node.after ops).clock := by
    apply timed_after hwell hpaced _ ops hsaves
    rw [hclock]
    exact ⟨le_refl _, hdrawn.pos hpaced, hdrawn, le_refl _, hpaced.heartbeat_pos⟩
  refine ⟨htimed, ?_, ?_, ?_⟩
  · intro hmaximum elapsed hnonneg
    rw [← hconfig] at hpaced htimed hmaximum
    exact computes64_of_timed hpaced htimed hmaximum hnonneg
  · rcases exists_last Resets node ops with ⟨before, since, rfl, hlast, hquiet⟩
    refine ⟨before, since, rfl, hlast, hquiet, ?_⟩
    intro elapsed hnonneg hstate
    have hzero : (node.after before).electionElapsed = 0 := by
      rcases hlast with rfl | hends
      · exact congrArg Clock.electionElapsed hclock
      · exact elapsed_of_endsWith hwell hpaced (throughout_append.mp hsaves).left
          hends
    rw [startsElection_tick_iff]
    exact elects_iff hwell hpaced hsaves hzero hquiet hnonneg hstate
  · intro hleads
    rcases exists_last Rewinds node ops with ⟨before, since, rfl, hlast, hquiet⟩
    have hends : EndsWith Rewinds node before := by
      rcases hlast with rfl | hends
      · -- A node that nothing made a leader is still the follower it was built as.
        have hstate := (heartbeat_after hwell hpaced since hsaves hquiet hleads).left
        rw [hfresh.follows] at hstate
        cases hstate
      · exact hends
    refine ⟨before, since, rfl, hends, hquiet, ?_⟩
    intro elapsed hnonneg
    rcases outbox_of_tick hafter hleads elapsed with ⟨hsends, hkept⟩
    rw [hconfig] at hsends
    exact ⟨beats_iff hwell hpaced hsaves hends hquiet hnonneg hleads, hsends, hkept⟩

end Random

end Storage

def electedOps : List Operation :=
  [.tick 300, .step firstVote, .tick 30]

/-- A follower that has waited for a while, and the leader that it becomes. -/
theorem timers_keep_time_firstVote :
    exists node : RaftNode InMemoryRaftStorage LeastEngine,
      RaftNode.create { nodeId := 1, peers := [2, 3] } {} = .ok node ∧
      (exists before since, [.tick 100] = before ++ since ∧
        (node.after before).electionTimeout = waited since + 50) ∧
      (node.after electedOps).state = .leader ∧
      Computes64 (node.after electedOps) 20 ∧
      (exists before since, electedOps = before ++ since ∧ waited since = 30) ∧
      SendsTo [2, 3] (node.after electedOps)
        (outcome (RaftNode.tick 20) (node.after electedOps)).2 ∧
      (outcome (RaftNode.tick 19) (node.after electedOps)).2.outbox =
        (node.after electedOps).outbox := by
  have hcreate : RaftNode.create { nodeId := 1, peers := [2, 3] }
      ({} : InMemoryRaftStorage) =
        .ok (_ : RaftNode InMemoryRaftStorage LeastEngine) := rfl
  have hsaves (ops : List Operation) :=
    throughout_savesSucceed (fun state _ => ⟨{ state := state }, rfl⟩)
      (fresh_of_create hcreate).well ops
  rcases timers_keep_time hcreate _ (hsaves [.tick 100]) with
    ⟨_, _, ⟨before, since, hops, _, _, helects⟩, _⟩
  rcases timers_keep_time hcreate _ (hsaves electedOps) with
    ⟨_, hcomputes, _, hleads⟩
  rcases hleads (by decide +kernel) with ⟨before', since', hops', _, _, hbeats⟩
  refine ⟨_, hcreate, ⟨before, since, hops, ?_⟩, by decide +kernel,
    hcomputes (by decide) 20 (by decide), ⟨before', since', hops', ?_⟩, ?_, ?_⟩
  · have hdue := (helects 50 (by decide) (by decide +kernel)).mp
      ⟨by decide +kernel, by decide +kernel, by decide +kernel⟩
    have hearly := mt (helects 49 (by decide) (by decide +kernel)).mpr
      fun hstarts => absurd hstarts.term (by decide +kernel)
    lia
  · have hdue := (hbeats 20 (by decide)).left.mp
      ⟨by decide, by decide +kernel, by decide +kernel⟩
    have hearly := mt (hbeats 19 (by decide)).left.mpr
      fun hbeat => absurd hbeat.due (by decide +kernel)
    have hinterval : ({ nodeId := 1, peers := [2, 3] } : RaftConfig).heartbeatInterval =
        50 := rfl
    lia
  · exact (hbeats 20 (by decide)).right.left
      ⟨by decide, by decide +kernel, by decide +kernel⟩
  · exact (hbeats 19 (by decide)).right.right
      fun hbeat => absurd hbeat.due (by decide +kernel)

end Raft
end FTKV
