import FTKV.Raft.Timing

/-!
# Roles

The role of a node is kept in several fields that six functions update one by
one: the state, the vote, the leader hint, the votes received and the end of the
log.  Between two operations they fit together, whatever messages arrive.

The fields of the role are followed action by action.  Only that a candidate has
fewer votes than a quorum is a matter of whole operations: in between, a candidate
may hold a quorum and not have become leader yet.
-/

namespace FTKV
namespace Raft

open Foundation
open Foundation.Effect

variable {storage random : Type} {n n' : RaftNode storage random} {call : Call}

/-!
# Votes and hints
-/

def GrantedIn (ops : List Operation) (term : Term) (voter : NodeId) : Prop :=
  exists op message response, op ∈ ops ∧ op.delivers = some message ∧
    message.fromNode = voter ∧ message.rpc = .requestVoteResponse response ∧
    response.term = term ∧ response.voteGranted = true

structure Candidacy (granted : Term -> NodeId -> Prop)
    (n : RaftNode storage random) : Prop where
  vote : n.votedFor = some n.config.nodeId
  hint : n.leaderId = none
  self : n.config.nodeId ∈ n.votesReceived
  ballots : forall voter, voter ∈ n.votesReceived -> voter ≠ n.config.nodeId ->
    granted n.currentTerm voter

structure Leadership (n : RaftNode storage random) : Prop where
  vote : n.votedFor = some n.config.nodeId
  hint : n.leaderId = some n.config.nodeId

structure InRole (granted : Term -> NodeId -> Prop)
    (n : RaftNode storage random) : Prop where
  candidate : n.state = .candidate -> Candidacy granted n
  leader : n.state = .leader -> Leadership n

def roleFields (n : RaftNode storage random) :
    NodeState × Term × Option NodeId × Option NodeId × Finset NodeId × NodeId :=
  (n.state, n.currentTerm, n.votedFor, n.leaderId, n.votesReceived, n.config.nodeId)

variable {granted granted' : Term -> NodeId -> Prop}

theorem inRole_of_same (h : InRole granted n) (hrole : roleFields n' = roleFields n) :
    InRole granted n' := by
  simp only [roleFields, Prod.mk.injEq] at hrole
  rcases hrole with ⟨hstate, hterm, hvote, hhint, hvotes, hself⟩
  constructor
  · intro hcandidate
    have hn := h.candidate (hstate.symm.trans hcandidate)
    constructor
    · rw [hvote, hself]
      exact hn.vote
    · rw [hhint]
      exact hn.hint
    · rw [hself, hvotes]
      exact hn.self
    · rw [hself, hvotes, hterm]
      exact hn.ballots
  · intro hleads
    have hn := h.leader (hstate.symm.trans hleads)
    constructor
    · rw [hvote, hself]
      exact hn.vote
    · rw [hhint, hself]
      exact hn.hint

theorem inRole_of_follows (hstate : n.state = .follower) : InRole granted n := by
  constructor
  · intro hcandidate
    rw [hstate] at hcandidate
    cases hcandidate
  · intro hleads
    rw [hstate] at hleads
    cases hleads

theorem inRole_mono (h : InRole granted n)
    (hmore : forall term voter, granted term voter -> granted' term voter) :
    InRole granted' n := by
  constructor
  · intro hcandidate
    have hn := h.candidate hcandidate
    exact ⟨hn.vote, hn.hint, hn.self,
      fun voter hvoter hother => hmore _ _ (hn.ballots voter hvoter hother)⟩
  · exact h.leader

def Hears (call : Call) (granted : Term -> NodeId -> Prop) : Prop :=
  forall message response, call.inbox = some message ->
    message.rpc = .requestVoteResponse response -> response.voteGranted = true ->
      granted response.term message.fromNode

section Storage

variable [RaftStorage storage]

theorem inRole_volatile (hhears : Hears call granted) (h : InRole granted n)
    (hvolatile : Volatile call n n') : InRole granted n' := by
  cases hvolatile with
  | follow => exact inRole_of_follows rfl
  | @tally sender response hhandles hstate hterm hgranted =>
      have hn := h.candidate hstate
      constructor
      · intro _
        constructor
        · exact hn.vote
        · exact hn.hint
        · exact Finset.mem_insert_of_mem hn.self
        · intro voter hvoter hother
          rcases Finset.mem_insert.mp hvoter with rfl | hearlier
          · show granted n.currentTerm voter
            rw [← hterm]
            exact hhears _ response hhandles.left rfl hgranted
          · exact hn.ballots voter hearlier hother
      · intro hleads
        exact absurd (hstate.symm.trans hleads) nofun
  | timer | emit | replicate | record | retry | raise => exact inRole_of_same h rfl

omit [RaftStorage storage] in
theorem inRole_durable (h : InRole granted n) (hdurable : Durable call n n') :
    InRole granted n' := by
  cases hdurable with
  | adopt => exact inRole_of_follows rfl
  | campaign =>
      constructor
      · intro _
        constructor
        · rfl
        · rfl
        · exact Finset.mem_singleton_self _
        · intro voter hvoter hother
          exact absurd (Finset.mem_singleton.mp hvoter) hother
      · exact nofun
  | elect hstate =>
      constructor
      · exact nofun
      · intro _
        exact ⟨(h.candidate hstate).vote, rfl⟩
  | vote hhandles hcandidate hterm hnone =>
      -- Only a follower has a vote to give.
      constructor
      · intro hstate
        have hvote := (h.candidate hstate).vote
        rw [hnone] at hvote
        cases hvote
      · intro hstate
        have hvote := (h.leader hstate).vote
        rw [hnone] at hvote
        cases hvote
  | rewrite haccepts => exact inRole_of_follows haccepts.follows
  | propose => exact inRole_of_same h rfl

theorem inRole_path (hhears : Hears call granted) (h : InRole granted n)
    (hpath : Path call n n') : InRole granted n' := by
  induction hpath with
  | refl => exact h
  | tail _ haction ih =>
      cases haction with
      | volatile hvolatile => exact inRole_volatile hhears ih hvolatile
      | durable _ hdurable hsaved =>
          have hmiddle := inRole_durable ih hdurable
          rcases hsaved with ⟨store, -, rfl⟩
          exact inRole_of_same hmiddle rfl

/-!
# Elections that are not won yet
-/

def Short (n : RaftNode storage random) : Prop :=
  n.state = .candidate -> n.votesReceived.card < n.quorumSizeLocked

def tallyOf (n : RaftNode storage random) :
    NodeState × Finset NodeId × Finset NodeId :=
  (n.state, n.votesReceived, n.members)

omit [RaftStorage storage] in
theorem short_of_same (h : Short n) (htally : tallyOf n' = tallyOf n) :
    Short n' := by
  simp only [tallyOf, Prod.mk.injEq] at htally
  rcases htally with ⟨hstate, hvotes, hmembers⟩
  intro hcandidate
  unfold RaftNode.quorumSizeLocked
  rw [hvotes, hmembers]
  exact h (hstate.symm.trans hcandidate)

omit [RaftStorage storage] in
theorem short_of_state (hstate : n.state ≠ .candidate) : Short n :=
  fun hcandidate => absurd hcandidate hstate

theorem ensures_becomeLeaderLocked_short :
    Ensures becomeLeaderLocked n (IfSaved Short) := by
  apply ensures_mono ensures_becomeLeaderLocked_standing
  intro r n' hstanding
  have hleads : n'.clock.state = .leader := by rw [(Prod.mk.inj hstanding).left]
  right
  apply short_of_state
  show n'.clock.state ≠ .candidate
  rw [hleads]
  nofun

theorem ensures_handleRequestVoteResponseLocked_short {sender : NodeId}
    {response : RequestVoteResponse} (h : Short n) :
    Ensures (handleRequestVoteResponseLocked sender response) n (IfSaved Short) := by
  unfold handleRequestVoteResponseLocked
  rw [ensures_bind, ensures_get, continues_ok]
  split
  · exact Or.inr h
  · simp only [ensures_bind, ensures_modify, ensures_get, continues_ok]
    split
    · exact ensures_becomeLeaderLocked_short
    · rename_i hfew
      exact Or.inr fun _ => not_le.mp hfew

section Random

variable [RandomEngine random]

theorem ensures_startElectionLocked_short :
    Ensures startElectionLocked n (IfSaved Short) := by
  apply ensures_startElectionLocked_campaigns
  · intro n1 _ _
    exact ensures_becomeLeaderLocked_short
  · intro n1 outbox _ hfew
    exact Or.inr fun _ => hfew
  · intro cause n1 _
    exact Or.inl ⟨cause, rfl⟩

theorem ensures_tick_short {elapsed : Int} (h : Short n) :
    Ensures (RaftNode.tick elapsed) n (IfSaved Short) := by
  apply ensures_tick_cases
  · intro _
    exact Or.inr h
  · intro _
    have hkept : Preserves tallyOf
        (broadcastAppendEntriesLocked : NodeM storage random Unit) :=
      preserves_broadcastAppendEntriesLocked fun _ _ _ => rfl
    exact ensures_ifSaved_of_preserves hkept fun _ => short_of_same h
  · intro _ _ _
    exact Or.inr (short_of_same h rfl)
  · intro _
    exact ensures_startElectionLocked_short
  · intro _ _ _
    exact Or.inr (short_of_same h rfl)

theorem short_requestEnds {sender : NodeId} {rpc : Rpc} {r : Except Fault Rpc}
    (h : Short n) (hends : RequestEnds sender n rpc r n') : Short n' := by
  rcases requestEnds_cases tallyOf (fun _ _ _ _ _ _ => rfl) hends with
    hfollows | htally
  · apply short_of_state
    rw [hfollows]
    nofun
  · exact short_of_same h htally

theorem ensures_stepLocked_short {message : Message} (hwell : WellFormed n)
    (h : Short n) : Ensures (stepLocked message) n (IfSaved Short) := by
  apply ensures_stepLocked_enters
  · intro _
    exact Or.inr h
  · intro cause n1 _ _ _
    exact Or.inl ⟨cause, rfl⟩
  · intro entered haddressed henters
    have hentered : Short entered := by
      cases henters with
      | current => exact h
      | adopted _ hsaved =>
          rcases hsaved with ⟨store, -, rfl⟩
          exact short_of_state nofun
    refine ensures_ifSaved_bind (fun _ _ => short_of_same) ?_
      fun _ => preserves_pure true
    cases hrpc : message.rpc with
    | requestVoteResponse response =>
        exact ensures_handleRequestVoteResponseLocked_short hentered
    | appendEntriesResponse response =>
        exact ensures_ifSaved_of_preserves
          (preserves_handleAppendEntriesResponseLocked
            (fun _ _ _ _ _ _ _ _ => rfl) message.fromNode response)
          fun _ => short_of_same hentered
    | requestVoteRequest request | appendEntriesRequest request =>
        have hrequest : RaftNode.isRequest message = true := by
          unfold RaftNode.isRequest
          rw [hrpc]
        have hwell' := henters.wellFormed hwell
        rw [← hrpc]
        apply ensures_mono
          (ensures_dispatch_ends hrequest hwell'.applied hwell'.committed)
        intro r n1 hqueues
        apply ifSaved_of_queues (fun _ _ h1 => short_of_same h1 rfl) _ hqueues
        intro r n2 hends
        exact Or.inr (short_requestEnds hentered hends)

theorem short_perform {op : Operation} (hwell : WellFormed n) (h : Short n)
    (hsaves : SavesSucceed n op) : Short (outcome op.perform n).2 := by
  refine perform_ifSaved Short (fun _ _ => short_of_same) (fun _ _ _ => rfl)
    ?_ ?_ ?_ (fun _ => h) hsaves
  · intro elapsed _
    exact ensures_tick_short h
  · intro message _
    exact ensures_stepLocked_short hwell h
  · intro command _
    exact ensures_ifSaved_of_preserves
      (preserves_propose (fun _ _ _ _ _ _ _ _ => rfl) (fun _ _ => rfl)
        (fun _ _ => rfl) command) fun _ => short_of_same h

end Random

/-!
# The log of a leader

From the moment of its election a leader only appends.  Within one call a node
that is not leader may win the election, and a leader that follows another node
does not come back.
-/

def noOpOf (term : Term) : LogEntry where
  term := term
  command := []
  isNoOp := true

/-- The log since the election: the old one, one no-op, and proposals. -/
def Reigns (base : List LogEntry) (n : RaftNode storage random) : Prop :=
  exists own, n.log.entries = base ++ noOpOf n.currentTerm :: own ∧
    forall entry, entry ∈ own -> entry.term = n.currentTerm ∧ entry.isNoOp = false

inductive Tenure (call : Call) (base : List LogEntry) (n : RaftNode storage random) :
    Prop where
  | awaiting (hstate : n.state ≠ .leader) (hlog : n.log.entries = base)
  | reigning (hstate : n.state = .leader) (hreigns : Reigns base n)
  | deposed (hstate : n.state = .follower) (hinbox : call.inbox ≠ none)

variable {base : List LogEntry}

omit [RaftStorage storage] in
theorem tenure_of_same (h : Tenure call base n) (hoffice : officeOf n' = officeOf n) :
    Tenure call base n' := by
  simp only [officeOf, Prod.mk.injEq] at hoffice
  rcases hoffice with ⟨hstate, hterm, hlog⟩
  cases h with
  | awaiting hwaits hbase =>
      apply Tenure.awaiting
      · rw [hstate]
        exact hwaits
      · rw [hlog]
        exact hbase
  | reigning hleads hreigns =>
      apply Tenure.reigning
      · rw [hstate]
        exact hleads
      · unfold Reigns
        rw [hlog, hterm]
        exact hreigns
  | deposed hfollows hinbox => exact .deposed (hstate.trans hfollows) hinbox

theorem tenure_volatile (h : Tenure call base n) (hvolatile : Volatile call n n') :
    Tenure call base n' := by
  cases hvolatile with
  | follow hhandles =>
      apply Tenure.deposed rfl
      rw [hhandles.left]
      nofun
  | timer | tally | emit | replicate | record | retry | raise =>
      exact tenure_of_same h rfl

omit [RaftStorage storage] in
theorem tenure_durable (h : Tenure call base n) (hdurable : Durable call n n') :
    Tenure call base n' := by
  cases hdurable with
  | adopt hinbox =>
      apply Tenure.deposed rfl
      rw [hinbox]
      nofun
  | campaign hinbox _ _ hstate =>
      cases h with
      | awaiting _ hlog => exact .awaiting nofun hlog
      | reigning hleads => exact absurd hleads hstate
      | deposed _ hsome => exact absurd hinbox hsome
  | elect hstate =>
      cases h with
      | awaiting _ hlog =>
          refine .reigning rfl ⟨[], ?_, nofun⟩
          show n.log.entries ++ [noOpOf n.currentTerm] = base ++ [noOpOf n.currentTerm]
          rw [hlog]
      | reigning hleads => exact absurd (hstate.symm.trans hleads) nofun
      | deposed hfollows => exact absurd (hstate.symm.trans hfollows) nofun
  | vote => exact tenure_of_same h rfl
  | @rewrite sender request haccepts =>
      have hinbox : call.inbox ≠ none := by
        rw [haccepts.handles.left]
        nofun
      exact .deposed haccepts.follows hinbox
  | @propose command _ _ hleads =>
      cases h with
      | awaiting hstate => exact absurd hleads hstate
      | reigning hstate hreigns =>
          rcases hreigns with ⟨own, hlog, hown⟩
          refine .reigning hstate ⟨own ++ [⟨n.currentTerm, command, false⟩], ?_, ?_⟩
          · show n.log.entries ++ [_] = _
            rw [hlog, List.append_assoc]
            rfl
          · intro entry hentry
            rcases List.mem_append.mp hentry with hearlier | hnew
            · exact hown entry hearlier
            · rw [List.mem_singleton.mp hnew]
              exact ⟨rfl, rfl⟩
      | deposed hfollows => exact absurd (hleads.symm.trans hfollows) nofun

theorem tenure_path (h : Tenure call base n) (hpath : Path call n n') :
    Tenure call base n' := by
  induction hpath with
  | refl => exact h
  | tail _ haction ih =>
      cases haction with
      | volatile hvolatile => exact tenure_volatile ih hvolatile
      | durable _ hdurable hsaved =>
          have hmiddle := tenure_durable ih hdurable
          rcases hsaved with ⟨store, -, rfl⟩
          exact tenure_of_same hmiddle rfl

/-!
# Whole runs
-/

variable [RandomEngine random]

theorem tenure_perform {op : Operation} (hwell : WellFormed n)
    (hsaves : SavesSucceed n op) (h : Tenure (op.call n) base n) :
    Tenure (op.call n) base (outcome op.perform n).2 := by
  apply perform_keeps hwell hsaves
  · intro n1 hpath
    exact tenure_path h hpath
  · intro n1 output n2 hn1 hdrained
    rw [hdrained.same]
    exact tenure_of_same hn1 rfl

theorem reigns_perform {op : Operation} (hwell : WellFormed n)
    (hsaves : SavesSucceed n op) (h : Tenure (op.call n) base n)
    (hleads : (outcome op.perform n).2.state = .leader) :
    Reigns base (outcome op.perform n).2 := by
  cases tenure_perform hwell hsaves h with
  | awaiting hstate => exact absurd hleads hstate
  | reigning _ hreigns => exact hreigns
  | deposed hfollows => exact absurd (hleads.symm.trans hfollows) nofun

theorem handled_of_idle {op : Operation} (hidle : op.Idle) : op.handled n = n := by
  cases op with
  | tick | step | propose => cases hidle
  | handleRequest message => exact if_pos hidle
  | takeMessages | takeCommittedEntries => rfl

theorem delivers_of_inbox {op : Operation} {message : Message} (hidle : ¬ op.Idle)
    (hinbox : op.inbox = some message) : op.delivers = some message := by
  cases op with
  | step => exact hinbox
  | handleRequest => exact (if_neg hidle).trans hinbox
  | tick | propose | takeMessages | takeCommittedEntries => cases hinbox

theorem inRole_perform {op : Operation} {ops : List Operation} (hwell : WellFormed n)
    (hsaves : SavesSucceed n op) (h : InRole (GrantedIn ops) n) :
    InRole (GrantedIn (ops ++ [op])) (outcome op.perform n).2 := by
  have hmore : InRole (GrantedIn (ops ++ [op])) n := by
    apply inRole_mono h
    intro term voter hgranted
    rcases hgranted with ⟨earlier, message, response, hearlier, hgrants⟩
    exact ⟨earlier, message, response, List.mem_append_left _ hearlier, hgrants⟩
  by_cases hidle : op.Idle
  · rcases ensures_perform hwell op with ⟨-, hdrained⟩
    rw [handled_of_idle hidle] at hdrained
    rw [hdrained.same]
    exact inRole_of_same hmore rfl
  · have hhears : Hears (op.call n) (GrantedIn (ops ++ [op])) := by
      intro message response hinbox hrpc hgranted
      have hdelivers := delivers_of_inbox hidle hinbox
      exact ⟨op, message, response, List.mem_append_right _ (List.mem_singleton_self op),
        hdelivers, rfl, hrpc, rfl, hgranted⟩
    apply perform_keeps hwell hsaves
    · intro n1 hpath
      exact inRole_path hhears hmore hpath
    · intro n1 output n2 hn1 hdrained
      rw [hdrained.same]
      exact inRole_of_same hn1 rfl

theorem after_snoc (node : RaftNode storage random) (ops : List Operation)
    (op : Operation) :
    node.after (ops ++ [op]) = (outcome op.perform (node.after ops)).2 := by
  rw [after_append]
  rfl

theorem inRole_after {node : RaftNode storage random} (hwell : WellFormed node)
    (hfollows : node.state = .follower) (ops : List Operation)
    (hsaves : RaftNode.Throughout SavesSucceed node ops) :
    InRole (GrantedIn ops) (node.after ops) ∧ Short (node.after ops) := by
  induction ops using List.reverseRecOn with
  | nil =>
      constructor
      · exact inRole_of_follows hfollows
      · intro hcandidate
        exact absurd (hfollows.symm.trans hcandidate) nofun
  | append_singleton ops op ih =>
      rcases throughout_append.mp hsaves with ⟨hbefore, hlast, -⟩
      have hafter : WellFormed (node.after ops) := wellFormed_after hwell ops
      rw [after_snoc]
      exact ⟨inRole_perform hafter hlast (ih hbefore).left,
        short_perform hafter (ih hbefore).right hlast⟩

/-- The operation made the node leader, and it has been leader since. -/
structure Elected (node : RaftNode storage random) (before : List Operation)
    (op : Operation) (since : List Operation) : Prop where
  earlier : (node.after before).state ≠ .leader
  leads : RaftNode.Throughout (fun n _ => n.state = .leader)
    (node.after (before ++ [op])) since

theorem elected_after {node : RaftNode storage random} (hwell : WellFormed node)
    (hfollows : node.state = .follower) (ops : List Operation)
    (hsaves : RaftNode.Throughout SavesSucceed node ops)
    (hleads : (node.after ops).state = .leader) :
    exists before op since, ops = before ++ op :: since ∧
      Elected node before op since ∧
      Reigns (node.after before).log.entries (node.after ops) := by
  induction ops using List.reverseRecOn with
  | nil => exact absurd (hfollows.symm.trans hleads) nofun
  | append_singleton ops op ih =>
      rcases throughout_append.mp hsaves with ⟨hbefore, hlast, -⟩
      have hafter : WellFormed (node.after ops) := wellFormed_after hwell ops
      rw [after_snoc] at hleads
      by_cases hearlier : (node.after ops).state = .leader
      · -- The reign goes on from the election before.
        rcases ih hbefore hearlier with ⟨before, won, since, rfl, helected, hreigns⟩
        have hreigns' := reigns_perform hafter hlast (.reigning hearlier hreigns) hleads
        refine ⟨before, won, since ++ [op], List.append_assoc .., ?_, ?_⟩
        · constructor
          · exact helected.earlier
          · rw [throughout_append, ← after_append, List.append_assoc]
            exact ⟨helected.leads, hearlier, trivial⟩
        · rw [after_snoc]
          exact hreigns'
      · have hreigns := reigns_perform hafter hlast (.awaiting hearlier rfl) hleads
        refine ⟨ops, op, [], rfl, ⟨hearlier, trivial⟩, ?_⟩
        rw [after_snoc]
        exact hreigns

/--
After every operation of a run in which the saves succeed, and whatever messages
arrive, the votes received are those of members.  A candidate has voted for itself,
knows no leader and has fewer votes than a quorum: its own, and votes that were
granted to it in its term.  A leader has voted for itself and names itself.  Its log
is the one that it was elected with, one no-op of its term, and entries of its
term that are not no-ops.
-/
theorem roles_represented {config : RaftConfig} {store : storage}
    {node : RaftNode storage random} (hcreate : RaftNode.create config store = .ok node)
    (ops : List Operation) (hsaves : RaftNode.Throughout SavesSucceed node ops) :
    (node.after ops).votesReceived ⊆ (node.after ops).members ∧
    ((node.after ops).state = .candidate ->
      Candidacy (GrantedIn ops) (node.after ops) ∧
      (node.after ops).votesReceived.card < (node.after ops).quorumSizeLocked) ∧
    ((node.after ops).state = .leader ->
      Leadership (node.after ops) ∧
      exists before op since, ops = before ++ op :: since ∧
        Elected node before op since ∧
        Reigns (node.after before).log.entries (node.after ops)) := by
  have hfresh := fresh_of_create hcreate
  have hafter : WellFormed (node.after ops) := wellFormed_after hfresh.well ops
  rcases inRole_after hfresh.well hfresh.follows ops hsaves with ⟨hrole, hshort⟩
  refine ⟨hafter.votes, ?_, ?_⟩
  · intro hcandidate
    exact ⟨hrole.candidate hcandidate, hshort hcandidate⟩
  · intro hleads
    exact ⟨hrole.leader hleads,
      elected_after hfresh.well hfresh.follows ops hsaves hleads⟩

end Storage

/-- A node of three members that one peer elects, and that proposes then. -/
theorem roles_represented_elected :
    exists (node : RaftNode InMemoryRaftStorage LeastEngine) (ops : List Operation),
      RaftNode.create { nodeId := 1, peers := [2, 3] } {} = .ok node ∧
      (node.after ops).state = .leader ∧ (node.after ops).log.entries.length = 2 ∧
      Leadership (node.after ops) ∧
      exists before op since, ops = before ++ op :: since ∧
        Elected node before op since ∧
        Reigns (node.after before).log.entries (node.after ops) := by
  let ops : List Operation := [.tick 300,
    .step ⟨2, 1, .requestVoteResponse ⟨1, true⟩⟩, .propose [7]]
  have hcreate : RaftNode.create { nodeId := 1, peers := [2, 3] }
      ({} : InMemoryRaftStorage) =
        .ok (_ : RaftNode InMemoryRaftStorage LeastEngine) := rfl
  have hsaves := throughout_savesSucceed (fun state _ => ⟨{ state := state }, rfl⟩)
    (fresh_of_create hcreate).well ops
  exact ⟨_, ops, hcreate, by decide +kernel, by decide +kernel,
    (roles_represented hcreate ops hsaves).right.right (by decide +kernel)⟩

end Raft
end FTKV
