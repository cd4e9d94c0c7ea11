import FTKV.Raft.Durability

/-!
# One vote per term

The votes that a node grants over all its incarnations.  Saves may fail and the
node may be rebuilt from its storage at any time; what binds it to a vote is
what its storage holds.
-/

namespace FTKV
namespace Raft

open Foundation
open Foundation.Effect

/-!
# Commitments to a candidate
-/

/-- A state that no longer allows a vote for anyone else in the term. -/
def Binds (state : PersistentState) (term : Term) (candidate : NodeId) : Prop :=
  term < state.currentTerm ∨
    (term = state.currentTerm ∧ state.votedFor = some candidate)

def Precedes (state later : PersistentState) : Prop :=
  state.currentTerm < later.currentTerm ∨
    (state.currentTerm = later.currentTerm ∧
      (state.votedFor = none ∨ state.votedFor = later.votedFor))

theorem precedes_refl (state : PersistentState) : Precedes state state :=
  Or.inr ⟨rfl, Or.inr rfl⟩

theorem precedes_trans {first second third : PersistentState}
    (h : Precedes first second) (h' : Precedes second third) :
    Precedes first third := by
  rcases h with hlt | ⟨heq, hvote⟩
  · rcases h' with hlt' | ⟨heq', -⟩
    · exact Or.inl (lt_trans hlt hlt')
    · exact Or.inl (by rw [← heq']; exact hlt)
  · rcases h' with hlt' | ⟨heq', hvote'⟩
    · exact Or.inl (by rw [heq]; exact hlt')
    · refine Or.inr ⟨heq.trans heq', ?_⟩
      rcases hvote with hnone | hsame
      · exact Or.inl hnone
      · rw [hsame]
        exact hvote'

theorem binds_of_precedes {state later : PersistentState} {term : Term}
    {candidate : NodeId} (h : Precedes state later)
    (hbinds : Binds state term candidate) : Binds later term candidate := by
  rcases hbinds with hlt | ⟨heq, hvote⟩
  · rcases h with hlt' | ⟨heq', -⟩
    · exact Or.inl (lt_trans hlt hlt')
    · exact Or.inl (by rw [← heq']; exact hlt)
  · rcases h with hlt' | ⟨heq', hvote'⟩
    · exact Or.inl (by rw [heq]; exact hlt')
    · refine Or.inr ⟨heq.trans heq', ?_⟩
      rcases hvote' with hnone | hsame
      · rw [hnone] at hvote
        cases hvote
      · rw [← hsame]
        exact hvote

variable {storage random : Type} {start n n' : RaftNode storage random}
  {call : Call}

theorem precedes_durable
    (hterm : call.inbox = none -> call.proposal = none ->
      call.term ≠ 18446744073709551615)
    (hdurable : Durable call n n') :
    Precedes n.persistentState n'.persistentState := by
  cases hdurable with
  | adopt hinbox hhigher => exact Or.inl hhigher
  | campaign hinbox hproposal hcurrent hstate =>
      have hlast := hterm hinbox hproposal
      rw [← hcurrent] at hlast
      exact Or.inl (term_lt_succ hlast)
  | vote hhandles hcandidate hsame hnone hcurrent =>
      exact Or.inr ⟨rfl, Or.inl hnone⟩
  | elect | rewrite | propose => exact Or.inr ⟨rfl, Or.inr rfl⟩

/-!
# Granted votes
-/

def grantOf (message : Message) : Option (Term × NodeId) :=
  match message.rpc with
  | .requestVoteResponse response =>
      if response.voteGranted then
        some (response.term, message.toNode)
      else
        none
  | _ => none

def Consistent (grants : List (Term × NodeId)) : Prop :=
  forall term candidate other, (term, candidate) ∈ grants ->
    (term, other) ∈ grants -> candidate = other

section Storage

variable [RaftStorage storage]

def VoteSaved (n : RaftNode storage random) : Prop :=
  exists stored, RaftStorage.load n.storage = .ok stored ∧
    stored.currentTerm = n.currentTerm ∧ stored.votedFor = n.votedFor

/-- A request to which the candidate that has the node's vote gets it again. -/
structure RepeatsVote (n : RaftNode storage random) (message : Message)
    (request : RequestVoteRequest) : Prop where
  addressed : message.toNode = n.config.nodeId
  peer : message.fromNode ∈ n.config.peers
  rpc : message.rpc = .requestVoteRequest request
  candidate : request.candidateId = message.fromNode
  current : request.term = n.currentTerm
  voted : n.votedFor = some message.fromNode
  log_current : n.candidateLogIsCurrentLocked request = true

/-- Such a request is handled only while storage holds the vote. -/
def Careful (n : RaftNode storage random) (op : Operation) : Prop :=
  forall message request, op.inbox = some message -> RepeatsVote n message request ->
    VoteSaved n

/-- The storage binds the node to the votes that it has granted. -/
structure Bound (n : RaftNode storage random) (grants : List (Term × NodeId)) :
    Prop where
  consistent : Consistent grants
  stored : exists stored, RaftStorage.load n.storage = .ok stored ∧
    Precedes stored n.persistentState ∧
    forall term candidate, (term, candidate) ∈ grants ->
      Binds stored term candidate

theorem bound_of_precedes {grants : List (Term × NodeId)} (h : Bound n grants)
    (hload : RaftStorage.load n'.storage = RaftStorage.load n.storage)
    (hprecedes : Precedes n.persistentState n'.persistentState) :
    Bound n' grants := by
  rcases h.stored with ⟨stored, hstored, hbefore, hbinds⟩
  exact ⟨h.consistent, stored, hload.trans hstored,
    precedes_trans hbefore hprecedes, hbinds⟩

theorem bound_of_mirrored {grants : List (Term × NodeId)} (h : Bound n grants)
    (hprecedes : Precedes n.persistentState n'.persistentState)
    (hmirrored : Mirrored n') : Bound n' grants := by
  rcases h.stored with ⟨stored, hstored, hbefore, hbinds⟩
  refine ⟨h.consistent, n'.persistentState, hmirrored, precedes_refl _, ?_⟩
  intro term candidate hgrant
  exact binds_of_precedes (precedes_trans hbefore hprecedes)
    (hbinds term candidate hgrant)

theorem bound_grant {grants : List (Term × NodeId)} {candidate : NodeId}
    (h : Bound n grants) (hsaved : VoteSaved n)
    (hvote : n.votedFor = some candidate) :
    Bound n (grants ++ [(n.currentTerm, candidate)]) := by
  rcases h.stored with ⟨stored, hstored, hbefore, hbinds⟩
  rcases hsaved with ⟨stored', hstored', hterm, hsame⟩
  rw [hstored] at hstored'
  cases hstored'
  rw [hvote] at hsame
  have hunique : forall other, (n.currentTerm, other) ∈ grants ->
      other = candidate := by
    intro other hother
    rcases hbinds _ other hother with hlt | ⟨-, hvoted⟩
    · rw [hterm] at hlt
      exact absurd hlt (lt_irrefl _)
    · rw [hsame] at hvoted
      cases hvoted
      rfl
  refine ⟨?_, stored, hstored, hbefore, ?_⟩
  · intro term first second hfirst hsecond
    simp only [List.mem_append, List.mem_singleton, Prod.mk.injEq]
      at hfirst hsecond
    rcases hfirst with hfirst | ⟨rfl, rfl⟩
    · rcases hsecond with hsecond | ⟨rfl, rfl⟩
      · exact h.consistent term first second hfirst hsecond
      · exact hunique first hfirst
    · rcases hsecond with hsecond | ⟨-, rfl⟩
      · exact (hunique second hsecond).symm
      · rfl
  · intro term other hother
    rcases List.mem_append.mp hother with hold | hnew
    · exact hbinds term other hold
    · cases List.mem_singleton.mp hnew
      exact Or.inr ⟨hterm.symm, hsame⟩

/-!
# Votes granted by a call
-/

structure Faithful (start n : RaftNode storage random)
    (grants : List (Term × NodeId)) : Prop where
  clean : Clean start n
  sent : exists new, n.outbox = start.outbox ++ new ∧
    Bound n (grants ++ new.filterMap grantOf)

theorem voteSaved_of_clean {sender : NodeId} {request : RequestVoteRequest}
    (h : Clean start n)
    (hcareful : forall message request, call.inbox = some message ->
      RepeatsVote start message request -> VoteSaved start)
    (hhandles : Handles call n sender (.requestVoteRequest request))
    (hcandidate : request.candidateId = sender)
    (hterm : request.term = n.currentTerm)
    (hvote : n.votedFor = some sender)
    (hcurrent : n.candidateLogIsCurrentLocked request = true) : VoteSaved n := by
  rcases h with hmirrored | hunaltered
  · exact ⟨n.persistentState, hmirrored, rfl, rfl⟩
  · have hsame : n.currentTerm = start.currentTerm :=
      congrArg PersistentState.currentTerm hunaltered.state_eq
    have hsame' : n.votedFor = start.votedFor :=
      congrArg PersistentState.votedFor hunaltered.state_eq
    have hrepeats : RepeatsVote start
        ⟨sender, n.config.nodeId, .requestVoteRequest request⟩ request := by
      constructor
      case addressed => rw [hunaltered.config_eq]
      case peer =>
        rw [← hunaltered.config_eq]
        exact hhandles.right
      case rpc => rfl
      case candidate => exact hcandidate
      case current => exact hterm.trans hsame
      case voted => exact hsame'.symm.trans hvote
      case log_current =>
        rw [← hcurrent]
        unfold RaftNode.candidateLogIsCurrentLocked RaftNode.lastLogTermLocked
          RaftNode.lastLogIndexLocked
        rw [hunaltered.log_eq]
    rcases hcareful _ _ hhandles.left hrepeats with
      ⟨stored, hload, hstored, hstored'⟩
    refine ⟨stored, by rw [hunaltered.storage_eq]; exact hload, ?_, ?_⟩
    · rw [hsame]
      exact hstored
    · rw [hsame']
      exact hstored'

section Lawful

variable [LawfulRaftStorage storage] {grants : List (Term × NodeId)}

theorem faithful_volatile (h : Faithful start n grants)
    (hcareful : forall message request, call.inbox = some message ->
      RepeatsVote start message request -> VoteSaved start)
    (hvolatile : Volatile call n n') : Faithful start n' grants := by
  have hclean := clean_action h.clean (.volatile hvolatile)
  rcases persistentState_volatile hvolatile with ⟨hstorage, hstate⟩
  have hkeep : forall {held}, Bound n held -> Bound n' held := by
    intro held hbound
    refine bound_of_precedes hbound (by rw [hstorage]) ?_
    rw [hstate]
    exact precedes_refl _
  rcases h.sent with ⟨new, hnew, hbound⟩
  have hsend : forall message, n'.outbox = n.outbox ++ [message] ->
      Bound n (grants ++ new.filterMap grantOf ++ [message].filterMap grantOf) ->
        Faithful start n' grants := by
    intro message houtbox hbound'
    refine ⟨hclean, new ++ [message], ?_, ?_⟩
    · rw [houtbox, hnew, List.append_assoc]
    · rw [List.filterMap_append, ← List.append_assoc]
      exact hkeep hbound'
  have hsilent : Bound n (grants ++ new.filterMap grantOf ++ []) := by
    rw [List.append_nil]
    exact hbound
  cases hvolatile with
  | timer | follow | tally | record | retry | raise =>
      exact ⟨hclean, new, hnew, hkeep hbound⟩
  | replicate => exact hsend _ rfl hsilent
  | emit hemit =>
      cases hemit with
      | solicit | deny | reject | acknowledge =>
          exact hsend _ rfl hsilent
      | grant hhandles hcandidate hterm hvote hcurrent =>
          have hsaved := voteSaved_of_clean h.clean hcareful hhandles hcandidate
            hterm hvote hcurrent
          exact hsend _ rfl (bound_grant hbound hsaved hvote)

theorem faithful_action (h : Faithful start n grants)
    (hterm : call.term ≠ 18446744073709551615)
    (hcareful : forall message request, call.inbox = some message ->
      RepeatsVote start message request -> VoteSaved start)
    (haction : Action call n n') : Faithful start n' grants := by
  cases haction with
  | volatile hvolatile => exact faithful_volatile h hcareful hvolatile
  | durable hquiet hdurable hsaved =>
      have hmirrored := mirrored_of_saved hsaved
      have hprecedes := precedes_durable (fun _ _ => hterm) hdurable
      rcases h.sent with ⟨new, hnew, hbound⟩
      rcases hsaved with ⟨store, -, rfl⟩
      exact ⟨Or.inl hmirrored, new,
        (storage_durable hdurable).right.left.trans hnew,
        bound_of_mirrored hbound hprecedes hmirrored⟩

theorem faithful_path (h : Faithful start n grants)
    (hterm : call.term ≠ 18446744073709551615)
    (hcareful : forall message request, call.inbox = some message ->
      RepeatsVote start message request -> VoteSaved start)
    (hpath : Path call n n') : Faithful start n' grants := by
  induction hpath with
  | refl => exact h
  | tail _ haction ih => exact faithful_action ih hterm hcareful haction

theorem bound_explained {result : Type} {r : Except Fault result}
    (h : Bound n grants) (hexplained : Explained call n r n')
    (hterm : call.term ≠ 18446744073709551615)
    (hcareful : forall message request, call.inbox = some message ->
      RepeatsVote n message request -> VoteSaved n) :
    exists new, n'.outbox = n.outbox ++ new ∧
      Bound n' (grants ++ new.filterMap grantOf) := by
  have hstart : Faithful n n grants := by
    refine ⟨Or.inr (.refl n), [], (List.append_nil _).symm, ?_⟩
    rw [List.filterMap_nil, List.append_nil]
    exact h
  cases hexplained with
  | returns hpath => exact (faithful_path hstart hterm hcareful hpath).sent
  | refused hpath hrefusal =>
      exact (faithful_path hstart hterm hcareful hpath).sent
  | interrupted hpath hinterrupted =>
      rcases hinterrupted with ⟨hquiet, changed, hdurable, hfailed⟩
      rcases (faithful_path hstart hterm hcareful hpath).sent with
        ⟨new, hnew, hbound⟩
      rcases storage_durable hdurable with ⟨hstorage, hsame, -⟩
      rcases load_saveFailed hfailed with ⟨hload, hstate, hsame', -⟩
      refine ⟨new, ?_, bound_of_precedes hbound ?_ ?_⟩
      · rw [hsame', hsame, hnew]
      · rw [hload, hstorage]
      · rw [hstate]
        exact precedes_durable (fun _ _ => hterm) hdurable

end Lawful

end Storage

/-!
# All incarnations of a node
-/

inductive Moment where
  | operation (op : Operation)
  | restart
deriving DecidableEq, Repr

section Lives

variable [RaftStorage storage] [RandomEngine random]

namespace RaftNode

def grants (n : RaftNode storage random) : List Moment -> List (Term × NodeId)
  | [] => []
  | .operation op :: rest =>
      (op.enqueues n).filterMap grantOf ++
        (outcome op.perform n).2.grants rest
  | .restart :: rest =>
      match create n.config n.storage with
      | .ok (n' : RaftNode storage random) => n'.grants rest
      | .error _ => []

def ThroughoutLife (meets : RaftNode storage random -> Operation -> Prop) :
    RaftNode storage random -> List Moment -> Prop
  | _, [] => True
  | n, .operation op :: rest =>
      meets n op ∧ ThroughoutLife meets (outcome op.perform n).2 rest
  | n, .restart :: rest =>
      match create n.config n.storage with
      | .ok n' => ThroughoutLife meets n' rest
      | .error _ => True

end RaftNode

def CarefulBelowMax (n : RaftNode storage random) (op : Operation) : Prop :=
  n.currentTerm ≠ 18446744073709551615 ∧ Careful n op

variable [LawfulRaftStorage storage]

theorem bound_perform {op : Operation} {held : List (Term × NodeId)}
    (h : WellFormed n) (hbound : Bound n held)
    (hcareful : CarefulBelowMax n op) :
    Bound (outcome op.perform n).2
      (held ++ (op.enqueues n).filterMap grantOf) := by
  rcases ensures_perform h op with ⟨hexplained, hdrained⟩
  rcases bound_explained hbound hexplained hcareful.left hcareful.right with
    ⟨new, hnew, hbound'⟩
  have henqueues : op.enqueues n = new := by
    unfold Operation.enqueues
    rw [hnew, List.drop_left]
  rw [henqueues, hdrained.same]
  exact ⟨hbound'.consistent, hbound'.stored⟩

omit [LawfulRaftStorage storage] in
theorem bound_create {held : List (Term × NodeId)} (h : Bound n held)
    (hcreate : RaftNode.create n.config n.storage = .ok n') :
    Bound n' held := by
  have hfresh := fresh_of_create hcreate
  have hmirrored := hfresh.mirrored
  rcases h.stored with ⟨stored, hload, -, hbinds⟩
  unfold Mirrored at hmirrored
  rw [hfresh.storage_eq, hload] at hmirrored
  refine ⟨h.consistent, stored, by rw [hfresh.storage_eq]; exact hload, ?_,
    hbinds⟩
  cases hmirrored
  exact precedes_refl _

theorem consistent_grants {held : List (Term × NodeId)} (h : WellFormed n)
    (hbound : Bound n held) (moments : List Moment)
    (hcareful : RaftNode.ThroughoutLife CarefulBelowMax n moments) :
    Consistent (held ++ n.grants moments) := by
  induction moments generalizing n held with
  | nil =>
      rw [RaftNode.grants, List.append_nil]
      exact hbound.consistent
  | cons moment rest ih =>
      cases moment with
      | operation op =>
          have hnext := ih (perform_spec h op).left
            (bound_perform h hbound hcareful.left) hcareful.right
          rw [RaftNode.grants, ← List.append_assoc]
          exact hnext
      | restart =>
          unfold RaftNode.grants
          unfold RaftNode.ThroughoutLife at hcareful
          split
          · rename_i node hcreate
            rw [hcreate] at hcareful
            exact ih (fresh_of_create hcreate).well (bound_create hbound hcreate)
              hcareful
          · rw [List.append_nil]
            exact hbound.consistent

/--
A node that repeats a vote only while its storage holds it never grants votes of
one term to two candidates, over all its incarnations.
-/
theorem one_vote_per_term {config : RaftConfig} {store : storage}
    {node : RaftNode storage random}
    (hcreate : RaftNode.create config store = .ok node)
    (moments : List Moment)
    (hcareful : RaftNode.ThroughoutLife CarefulBelowMax node moments) :
    forall term candidate other, (term, candidate) ∈ node.grants moments ->
      (term, other) ∈ node.grants moments -> candidate = other := by
  have hfresh := fresh_of_create hcreate
  have hbound : Bound node [] := by
    refine ⟨?_, node.persistentState, hfresh.mirrored, precedes_refl _, ?_⟩
    · intro term candidate other hnone
      cases hnone
    · intro term candidate hnone
      cases hnone
  exact consistent_grants hfresh.well hbound moments hcareful

end Lives

/-!
# A retried request after a failed save
-/

def voteRequest (candidate : NodeId) : Message where
  fromNode := candidate
  toNode := 1
  rpc := .requestVoteRequest { term := 1, candidateId := candidate }

theorem one_vote_per_term_inMemory :
    exists node : RaftNode InMemoryRaftStorage LeastEngine,
      RaftNode.create { nodeId := 1, peers := [2, 3] } {} = .ok node ∧
      node.grants [.operation (.step (voteRequest 2)), .restart,
        .operation (.step (voteRequest 3))] = [(1, 2)] ∧
      forall candidate, (1, candidate) ∈ node.grants
        [.operation (.step (voteRequest 2)), .restart,
          .operation (.step (voteRequest 3))] -> candidate = 2 := by
  have hcreate : RaftNode.create { nodeId := 1, peers := [2, 3] }
      ({} : InMemoryRaftStorage) =
        .ok (_ : RaftNode InMemoryRaftStorage LeastEngine) := rfl
  refine ⟨_, hcreate, by decide, ?_⟩
  intro candidate hcandidate
  refine one_vote_per_term hcreate _ ?_ 1 candidate 2 hcandidate (by decide)
  refine ⟨⟨by decide, ?_⟩, ⟨by decide, ?_⟩, trivial⟩
  · intro message request hmessage hrepeats
    cases hmessage
    exact absurd hrepeats.voted (by decide)
  · intro message request hmessage hrepeats
    cases hmessage
    exact absurd hrepeats.voted (by decide)

/--
The save of the vote for node 2 fails, so the first request throws.  The second
one is granted from memory.  After a restart the vote is forgotten and node 3
gets a vote of the same term.
-/
theorem two_votes_in_one_term :
    exists node : RaftNode ScriptedRaftStorage LeastEngine,
      RaftNode.create { nodeId := 1, peers := [2, 3] }
        { script := [true, false] } = .ok node ∧
      node.grants [.operation (.step (voteRequest 2)),
        .operation (.step (voteRequest 2)), .restart,
        .operation (.step (voteRequest 3))] = [(1, 2), (1, 3)] :=
  ⟨_, rfl, by decide⟩

end Raft
end FTKV
