import FTKV.Raft.Appends

/-!
# Public operations

The operations that the threads of a process call on its node, and sequences of
them.  An operation that throws leaves the node as it was at that point and the
next operation goes on from there.
-/

namespace FTKV
namespace Raft

open Foundation
open Foundation.Effect

/-!
# Operations and their results
-/

inductive Operation where
  | tick (elapsed : Int)
  | step (message : Message)
  | handleRequest (message : Message)
  | propose (command : Command)
  | takeMessages
  | takeCommittedEntries
deriving DecidableEq, Repr

/-- The messages and committed entries that an operation hands to its caller. -/
structure Output where
  messages : List Message := []
  entries : List CommittedEntry := []
deriving DecidableEq, Repr

namespace Operation

def inbox : Operation -> Option Message
  | .step message => some message
  | .handleRequest message => some message
  | _ => none

def proposal : Operation -> Option Command
  | .propose command => some command
  | _ => none

variable {storage random : Type}

def call (op : Operation) (n : RaftNode storage random) : Call where
  inbox := op.inbox
  proposal := op.proposal
  term := n.currentTerm
  outbox := n.outbox

def perform [RaftStorage storage] [RandomEngine random] :
    Operation -> NodeM storage random Output
  | .tick elapsed => do
      RaftNode.tick elapsed
      pure {}
  | .step message => do
      let _ <- RaftNode.step message
      pure {}
  | .handleRequest message => do
      let answer <- RaftNode.handleRequest message
      pure { messages := answer.toList }
  | .propose command => do
      let _ <- RaftNode.propose command
      pure {}
  | .takeMessages => do
      let messages <- RaftNode.takeMessages
      pure { messages := messages }
  | .takeCommittedEntries => do
      let entries <- RaftNode.takeCommittedEntries
      pure { entries := entries }

def handled [RaftStorage storage] [RandomEngine random] (op : Operation)
    (n : RaftNode storage random) : RaftNode storage random :=
  match op with
  | .handleRequest message =>
      if RaftNode.isRequest message = false then
        n
      else
        (outcome (stepLocked message) n).2
  | .takeMessages => n
  | .takeCommittedEntries => n
  | op => (outcome op.perform n).2

/-- The messages that the operation puts into the outbox. -/
def enqueues [RaftStorage storage] [RandomEngine random] (op : Operation)
    (n : RaftNode storage random) : List Message :=
  (op.handled n).outbox.drop n.outbox.length

end Operation

def outputOf : Except Fault Output -> Output
  | .ok output => output
  | .error _ => {}

variable {storage random : Type} {n n' : RaftNode storage random}
  {call : Call}

/-- Handing over takes messages and entries out of the node's queues. -/
structure Drained (n : RaftNode storage random) (output : Output)
    (n' : RaftNode storage random) : Prop where
  same : n' = { n with
    outbox := n'.outbox, committedEntries := n'.committedEntries }
  entries : output.entries ++ n'.committedEntries = n.committedEntries
  messages : forall message, message ∈ output.messages ∨ message ∈ n'.outbox ->
    message ∈ n.outbox

theorem drained_refl (n : RaftNode storage random) : Drained n {} n := by
  refine ⟨rfl, rfl, ?_⟩
  rintro message (hnone | hmessage)
  · cases hnone
  · exact hmessage

theorem wellFormed_drained {output : Output} (h : WellFormed n)
    (hdrained : Drained n output n') :
    WellFormed n' ∧ n'.commitIndex = n.commitIndex ∧ n'.log = n.log ∧
      output.entries ++ n'.committedEntries = n.committedEntries := by
  have hsame := hdrained.same
  have hentries := hdrained.entries
  rw [hsame]
  refine ⟨⟨h.members, h.self, h.unique, h.applied, h.committed, ?_, h.votes,
    h.tracked⟩, rfl, rfl, hentries⟩
  refine List.IsSuffix.trans ?_ h.pending
  rw [← hentries]
  exact List.suffix_append _ _

/-!
# Every operation is explained
-/

section Storage

variable [RaftStorage storage]

theorem ensures_explained_bind_pure {result result' : Type}
    {x : NodeM storage random result} {f : result -> result'}
    (hx : Ensures x n (Explained call n)) :
    Ensures (x >>= fun value => pure (f value)) n (Explained call n) := by
  refine ensures_bind_of hx ?_ ?_
  · intro value n1 hexplained
    cases hexplained with
    | returns hpath => exact .returns hpath
  · intro fault n1 hexplained
    exact explained_error hexplained

variable [RandomEngine random]

theorem ensures_dispatch {sender : NodeId} {rpc : Rpc} (h : WellFormed n)
    (hquiet : n.outbox = call.outbox) (hproposal : call.proposal = none)
    (hhandles : Handles call n sender rpc)
    (hterm : messageTerm ⟨sender, n.config.nodeId, rpc⟩ <= n.currentTerm) :
    Ensures (dispatch sender rpc) n (Explained call n) := by
  cases rpc with
  | requestVoteRequest request =>
      exact ensures_handleRequestVoteLocked hquiet hhandles hterm
  | requestVoteResponse response =>
      exact ensures_handleRequestVoteResponseLocked h hquiet hproposal hhandles
  | appendEntriesRequest request =>
      exact ensures_handleAppendEntriesLocked h hquiet hhandles hterm
  | appendEntriesResponse response =>
      exact ensures_handleAppendEntriesResponseLocked h hhandles

theorem ensures_stepLocked {message : Message} (h : WellFormed n)
    (hquiet : n.outbox = call.outbox) (hproposal : call.proposal = none)
    (hinbox : call.inbox = some message) :
    Ensures (stepLocked message) n (Explained call n) := by
  rcases message with ⟨sender, receiver, rpc⟩
  unfold stepLocked
  rw [ensures_bind, ensures_get, continues_ok]
  split
  · exact .returns (path_refl n)
  · rename_i haddressed
    have hreceiver : receiver = n.config.nodeId := by
      by_contra hne
      exact haddressed (Or.inl hne)
    have hpeer : sender ∈ n.config.peers := by
      refine h.isPeerLocked_iff.mp ?_
      by_contra hne
      exact haddressed (Or.inr hne)
    subst hreceiver
    have hdispatch : forall n1, Path call n n1 -> n1.outbox = n.outbox ->
        messageTerm ⟨sender, n.config.nodeId, rpc⟩ <= n1.currentTerm ->
        Ensures (do dispatch sender rpc; pure true) n1
          (Explained call n) := by
      intro n1 hpath houtbox hterm
      have hwell := wellFormed_path h hpath
      refine ensures_explained_of_path hpath (ensures_explained_bind_pure
        (ensures_dispatch hwell.left (houtbox.trans hquiet) hproposal ?_ ?_))
      · unfold Handles
        rw [hwell.right.config]
        exact ⟨hinbox, hpeer⟩
      · rw [hwell.right.config]
        exact hterm
    rw [ensures_bind]
    split
    · rename_i hlt
      refine ensures_becomeFollowerLocked_of_lt hquiet hinbox hlt ?_ ?_
      · intro n1 hpath houtbox hcurrent
        exact hdispatch n1 hpath houtbox (le_of_eq hcurrent.symm)
      · intro fault n1 hexplained
        exact explained_error hexplained
    · rename_i hle
      exact hdispatch n (path_refl n) rfl (not_lt.mp hle)

theorem ensures_tick {elapsed : Int} (h : WellFormed n)
    (hquiet : n.outbox = call.outbox) (hinbox : call.inbox = none)
    (hproposal : call.proposal = none) (hterm : n.currentTerm = call.term) :
    Ensures (RaftNode.tick elapsed) n (Explained call n) := by
  have hcall := not_appends_of_none hinbox
  unfold RaftNode.tick
  split
  · exact .refused (path_refl n) .argument
  · rw [ensures_bind, ensures_get, continues_ok]
    split
    · rename_i hleader
      split
      · rw [ensures_bind, ensures_modify, continues_ok]
        have hpath : Path call n { n with heartbeatElapsed := 0 } :=
          path_volatile (path_refl n)
            (.timer n.random n.electionTimeout n.electionElapsed 0)
        refine ensures_broadcastAppendEntriesLocked call
          (wellFormed_path h hpath).left hleader hcall ?_
        intro n1 hpath'
        exact .returns (path_trans hpath hpath')
      · rw [ensures_modify]
        exact .returns (path_volatile (path_refl n)
          (.timer n.random n.electionTimeout n.electionElapsed _))
    · rename_i hstate
      split
      · exact ensures_startElectionLocked h hquiet hinbox hproposal hterm hstate
      · rw [ensures_modify]
        exact .returns (path_volatile (path_refl n)
          (.timer n.random n.electionTimeout _ n.heartbeatElapsed))

omit [RandomEngine random] in
theorem ensures_propose {command : Command} (h : WellFormed n)
    (hquiet : n.outbox = call.outbox) (hinbox : call.inbox = none)
    (hproposal : call.proposal = some command) :
    Ensures (RaftNode.propose command) n (Explained call n) := by
  have hcall := not_appends_of_none hinbox
  unfold RaftNode.propose
  rw [ensures_bind, ensures_get, continues_ok]
  split
  · exact .returns (path_refl n)
  · rename_i hleads
    have hleader : n.state = .leader := not_not.mp hleads
    split
    · rename_i hsize
      exact .refused (path_refl n) (.overflow hsize)
    · simp only [ensures_bind, ensures_modify, continues_ok]
      refine ensures_persistLocked_of_durable (path_refl n) hquiet
        (.propose hinbox hproposal hleader) ?_ ?_
      · intro n1 hsaved hpath
        have hwell := (wellFormed_path h hpath).left
        have hleader' : n1.state = .leader := by
          rcases hsaved with ⟨store, -, rfl⟩
          exact hleader
        simp only [ensures_bind, ensures_get, continues_ok]
        refine ensures_advanceCommitIndexLocked hwell hleader'
          (Or.inl ⟨_, hsaved⟩) hcall ?_
        intro raised n2 hpath' hleader''
        rw [continues_ok, ensures_bind]
        refine ensures_broadcastAppendEntriesLocked call
          (wellFormed_path hwell hpath').left hleader'' hcall ?_
        intro n3 hpath''
        exact .returns (path_trans hpath (path_trans hpath' hpath''))
      · intro cause n1 hpath hinterrupted
        exact .interrupted hpath hinterrupted

/-!
# Answers to requests
-/

omit [RaftStorage storage] [RandomEngine random] in
theorem mem_of_takeAnswer {request answer : Message}
    {messages others : List Message}
    (htake : RaftNode.takeAnswer request messages = some (answer, others)) :
    answer ∈ messages ∧ forall message, message ∈ others ->
      message ∈ messages := by
  induction messages generalizing others with
  | nil => cases htake
  | cons first rest ih =>
      unfold RaftNode.takeAnswer at htake
      split at htake
      · cases htake
        exact ⟨List.mem_cons_self .., fun _ => List.mem_cons_of_mem _⟩
      · rcases hrest : RaftNode.takeAnswer request rest with _ | ⟨found, left⟩
        · rw [hrest] at htake
          cases htake
        · rw [hrest] at htake
          cases htake
          rcases ih hrest with ⟨hanswer, hothers⟩
          refine ⟨List.mem_cons_of_mem _ hanswer, ?_⟩
          intro message hmessage
          rcases List.mem_cons.mp hmessage with heq | hleft
          · exact List.mem_cons.mpr (Or.inl heq)
          · exact List.mem_cons_of_mem _ (hothers message hleft)

structure Performed (op : Operation) (n : RaftNode storage random)
    (r : Except Fault Output) (n' : RaftNode storage random) : Prop where
  explained : Explained (op.call n) n r (op.handled n)
  drained : Drained (op.handled n) (outputOf r) n'

theorem performed_of_explained {op : Operation} {result : Type}
    {x : NodeM storage random result}
    (hperform : op.perform = x >>= fun _ => pure {})
    (hhandled : op.handled n = (outcome op.perform n).2)
    (hx : Ensures x n (Explained (op.call n) n)) :
    Ensures op.perform n (Performed op n) := by
  have hexplained : Ensures op.perform n (fun r n1 =>
      Explained (op.call n) n r n1 ∧ outputOf r = {}) := by
    rw [hperform]
    refine ensures_bind_of hx ?_ ?_
    · intro value n1 hexplained
      cases hexplained with
      | returns hpath => exact ⟨.returns hpath, rfl⟩
    · intro fault n1 hexplained
      exact ⟨explained_error hexplained, rfl⟩
  rcases hexplained with ⟨hexplained, houtput⟩
  constructor
  · rw [hhandled]
    exact hexplained
  · rw [hhandled, houtput]
    exact drained_refl _

theorem ensures_handleRequest {message : Message} (h : WellFormed n) :
    Ensures (Operation.handleRequest message).perform n
      (Performed (.handleRequest message) n) := by
  simp only [Operation.perform, RaftNode.handleRequest]
  split
  · rename_i hrequest
    have hhandled : (Operation.handleRequest message).handled n = n :=
      if_pos hrequest
    constructor
    · rw [hhandled]
      exact .refused (path_refl n) .argument
    · rw [hhandled]
      exact drained_refl n
  · rename_i hrequest
    have hhandled : (Operation.handleRequest message).handled n =
        (outcome (stepLocked message) n).2 := if_neg hrequest
    have hstep : Ensures (stepLocked message) n (fun r n1 =>
        Explained ((Operation.handleRequest message).call n) n r n1 ∧
          n1 = (Operation.handleRequest message).handled n) :=
      ⟨ensures_stepLocked h rfl rfl rfl, hhandled.symm⟩
    simp only [ensures_bind, ensures_get, continues_ok]
    refine ensures_mono hstep ?_
    rintro r n1 ⟨hexplained, rfl⟩
    cases hexplained with
    | interrupted hpath hinterrupted =>
        exact ⟨.interrupted hpath hinterrupted, drained_refl _⟩
    | refused hpath hrefusal =>
        exact ⟨.refused hpath hrefusal, drained_refl _⟩
    | returns hpath =>
        rw [continues_ok]
        split
        · exact ⟨.returns hpath, drained_refl _⟩
        · rw [ensures_bind, ensures_get, continues_ok]
          cases hanswer : RaftNode.takeAnswer message
            (((Operation.handleRequest message).handled n).outbox.drop
              n.outbox.length) with
          | none => exact ⟨.returns hpath, drained_refl _⟩
          | some taken =>
              rcases taken with ⟨answer, others⟩
              rw [ensures_bind, ensures_set, continues_ok]
              rcases mem_of_takeAnswer hanswer with ⟨hmem, hothers⟩
              refine ⟨.returns hpath, rfl, rfl, ?_⟩
              rintro m (hm | hm)
              · rw [List.mem_singleton.mp hm]
                exact List.mem_of_mem_drop hmem
              · rcases List.mem_append.mp hm with hold | hnew
                · exact List.mem_of_mem_take hold
                · exact List.mem_of_mem_drop (hothers m hnew)

/-- Every public operation is a path of actions followed by a hand-over. -/
theorem ensures_perform (h : WellFormed n) (op : Operation) :
    Ensures op.perform n (Performed op n) := by
  cases op with
  | tick elapsed =>
      exact performed_of_explained rfl rfl (ensures_tick h rfl rfl rfl rfl)
  | step message =>
      exact performed_of_explained rfl rfl (ensures_stepLocked h rfl rfl rfl)
  | handleRequest message => exact ensures_handleRequest h
  | propose command =>
      exact performed_of_explained rfl rfl (ensures_propose h rfl rfl rfl)
  | takeMessages =>
      refine ⟨.returns (path_refl n), rfl, rfl, ?_⟩
      rintro message (hmessage | hnone)
      · exact hmessage
      · cases hnone
  | takeCommittedEntries =>
      refine ⟨.returns (path_refl n), rfl, List.append_nil _, ?_⟩
      rintro message (hnone | hmessage)
      · cases hnone
      · exact hmessage

end Storage

end Raft
end FTKV
