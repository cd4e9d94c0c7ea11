import FTKV.Cluster.Safety

/-!
# Deliveries in a cluster

The messages that reach a member were sent by members, so they satisfy more than
the handlers check.  This makes the looser clamp of the commit index safe and
the protocol's own assertions unreachable.
-/

namespace FTKV
namespace Raft

open Foundation
open Foundation.Effect
open Consensus

/-!
# Requests and the commit index
-/

section Calls

variable {storage random : Type} [RaftStorage storage]
  {n n' : RaftNode storage random} {call : Call} {message : Message}
  {request : AppendEntriesRequest}

theorem commitIndex_le_action (hinbox : call.inbox = some message)
    (hrpc : message.rpc = .appendEntriesRequest request)
    (haction : Action call n n') :
    n'.commitIndex <= max n.commitIndex request.leaderCommit := by
  cases haction with
  | volatile hvolatile =>
      cases hvolatile with
      | raise hlow hhigh hmay =>
          cases hmay with
          | confirmed hstate hterm hquorum hsaved hcall =>
              exact absurd ⟨message, request, hinbox, hrpc⟩ hcall
          | announced haccepts hcontains hindex =>
              have hsame := haccepts.handles.left
              rw [hinbox] at hsame
              cases hsame
              cases hrpc
              exact le_max_of_le_right hindex
      | timer | follow | tally | emit | replicate | record | retry =>
          exact le_max_left _ _
  | durable hquiet hdurable hsaved =>
      rcases hsaved with ⟨store, _, rfl⟩
      exact le_max_of_le_left (storage_durable hdurable).right.right.le

theorem commitIndex_le_path (hinbox : call.inbox = some message)
    (hrpc : message.rpc = .appendEntriesRequest request)
    (hpath : Path call n n') :
    n'.commitIndex <= max n.commitIndex request.leaderCommit := by
  induction hpath with
  | refl => exact le_max_left _ _
  | tail _ haction ih =>
      have hstep := commitIndex_le_action hinbox hrpc haction
      exact hstep.trans (max_le ih (le_max_right _ _))

theorem commitIndex_le_explained {result : Type} {r : Except Fault result}
    (hinbox : call.inbox = some message)
    (hrpc : message.rpc = .appendEntriesRequest request)
    (hexplained : Explained call n r n') :
    n'.commitIndex <= max n.commitIndex request.leaderCommit := by
  cases hexplained with
  | returns hpath | refused hpath => exact commitIndex_le_path hinbox hrpc hpath
  | interrupted hpath hinterrupted =>
      rcases hinterrupted with ⟨_, changed, hdurable, _, _, _, rfl⟩
      change changed.commitIndex <= _
      rw [(storage_durable hdurable).right.right]
      exact commitIndex_le_path hinbox hrpc hpath

theorem accepted_entry_eq {membership : Membership} {id : NodeId} {w : RaftWorld}
    {sender : NodeId} {offset : Nat} {localEntry incoming : LogEntry}
    (h : Represents membership id n w)
    (hinv : Inv (majority membership.members) w)
    (hinbox : forall message, call.inbox = some message -> Backed w message)
    (haccepts : Accepts call n sender request)
    (hlocal : n.log.entries[request.previousLogIndex + offset]? =
      some localEntry)
    (hincoming : request.entries[offset]? = some incoming)
    (hterm : localEntry.term = incoming.term) : localEntry = incoming := by
  have hpacket := (hinbox _ haccepts.handles.left).right.right
  rcases exists_snapshot hinv.logs hpacket with ⟨log, hsnapshot⟩
  exact hsnapshot.entry_eq_of_stamp hinv.logs (h.rooted hinv) hlocal hincoming hterm

end Calls

section Runs

variable {storage random : Type} [RaftStorage storage] [RandomEngine random]
  {membership : Membership} {run : Execution storage random membership}
  {k : Nat} {id : NodeId} {message : Message} {request : AppendEntriesRequest}

/-- A request in the network is a slice of the log of the leader of its term. -/
theorem Shadow.snapshot (shadow : Shadow run)
    (hmessage : message ∈ (run.states k).network)
    (hrpc : message.rpc = .appendEntriesRequest request) :
    exists log, Snapshot (majority membership.members) (shadow.worlds k)
      request.term request.leaderId request.previousLogIndex
      request.previousLogTerm request.entries request.leaderCommit log := by
  have hbacked := (shadow.refines k).network message hmessage
  have hsent := (backed_appendEntriesRequest hbacked hrpc).right.right
  exact exists_snapshot (shadow.inv k).logs hsent

theorem comparison_ne_rejected (shadow : Shadow run)
    (hid : id ∈ membership.members)
    (hmessage : message ∈ (run.states k).network)
    (hrpc : message.rpc = .appendEntriesRequest request)
    (hterm : ((run.states k).nodes id).currentTerm <= request.term)
    {n : RaftNode storage random} {sender : NodeId}
    (hlog : n.log = ((run.states k).nodes id).log)
    (hcommit : n.commitIndex = ((run.states k).nodes id).commitIndex)
    (hprevious : request.previousLogIndex <= n.lastLogIndexLocked) :
    (outcome (walkEntries sender request request.entries
      (request.previousLogIndex + 1)) n).1 ≠ .ok .rejected := by
  rcases shadow.snapshot hmessage hrpc with ⟨log, hsnapshot⟩
  have hsettled := settled_mono (evolves_refl _) hterm (List.take_prefix _ _)
    (Nat.le_refl _) (shadow.settled hid (Nat.le_refl k))
  have hcompared : Ensures (walkEntries sender request request.entries
      (request.previousLogIndex + 1)) n (Compared n sender request) := by
    rw [RaftNode.lastLogIndexLocked_eq] at hprevious
    exact ensures_walkEntries hprevious
  unfold Ensures at hcompared
  intro hrejected
  rw [hrejected] at hcompared
  generalize (outcome (walkEntries sender request request.entries
    (request.previousLogIndex + 1)) n).2 = n' at hcompared
  cases hcompared with
  | @rejected seen rest incoming localEntry hsplit hseen hlocal hne hlt =>
      rw [hlog] at hlocal
      rw [hcommit] at hlt
      have hincoming : request.entries[seen.length]? = some incoming := by
        rw [hsplit]
        simp
      have hsame := hsnapshot.entry_eq_of_settled (shadow.inv k) hsettled hlocal
        hincoming hlt
      exact hne (congrArg LogEntry.term hsame)

theorem request_term_ne (shadow : Shadow run) (hid : id ∈ membership.members)
    (hmessage : message ∈ (run.states k).network)
    (hrpc : message.rpc = .appendEntriesRequest request)
    (hleads : ((run.states k).nodes id).state = .leader)
    (hreceiver : message.toNode = id) :
    request.term ≠ ((run.states k).nodes id).currentTerm := by
  intro hterm
  rcases shadow.snapshot hmessage hrpc with ⟨log, hsnapshot⟩
  have hbacked := (shadow.refines k).network message hmessage
  rcases backed_appendEntriesRequest hbacked hrpc with ⟨hne, hsender, _⟩
  have hwinner := hsnapshot.winner
  rw [hterm, (shadow.leader hid hleads).left, hsender] at hwinner
  exact hne (hreceiver ▸ (Option.some.inj hwinner).symm)

theorem matchIndex_le (shadow : Shadow run) (hid : id ∈ membership.members)
    {response : AppendEntriesResponse}
    (hmessage : message ∈ (run.states k).network)
    (hrpc : message.rpc = .appendEntriesResponse response)
    (hleads : ((run.states k).nodes id).state = .leader)
    (hsuccess : response.success = true)
    (hterm : response.term = ((run.states k).nodes id).currentTerm) :
    response.matchIndex <= ((run.states k).nodes id).lastLogIndexLocked := by
  have hbacked := (shadow.refines k).network message hmessage
  have hconfirmed := (shadow.inv k).receipts.sent _ _ _
    (backed_appendEntriesResponse hbacked hrpc hsuccess)
  rcases Nat.eq_zero_or_pos response.matchIndex with hzero | hpos
  · lia
  have hbound := ((shadow.inv k).receipts.bound _ _
    (Nat.lt_of_lt_of_le hpos hconfirmed)).right.right
  rw [hterm] at hconfirmed hbound
  rw [(shadow.leader hid hleads).right] at hbound
  rw [RaftNode.lastLogIndexLocked_eq]
  exact hconfirmed.trans hbound

variable [LawfulRaftStorage storage]

/--
A member that raises its commit index while it handles a request stays within
the entries that the request covers.
-/
theorem request_commits_verified (run : Execution storage random membership)
    (k : Nat) (hid : id ∈ membership.members) (op : Operation)
    (hmessage : message ∈ (run.states k).network)
    (hinbox : op.inbox = some message)
    (hrpc : message.rpc = .appendEntriesRequest request)
    (hraised : ((run.states k).nodes id).commitIndex <
      (outcome op.perform ((run.states k).nodes id)).2.commitIndex) :
    (outcome op.perform ((run.states k).nodes id)).2.commitIndex <=
      request.previousLogIndex + request.entries.length := by
  rcases exists_shadow run with ⟨shadow⟩
  rcases shadow.snapshot hmessage hrpc with ⟨log, hsnapshot⟩
  have hannounced : request.leaderCommit <= log.length := hsnapshot.settled.left
  rw [← hsnapshot.length_eq] at hannounced
  rcases ensures_perform (shadow.represents k hid).well op with
    ⟨hexplained, hdrained⟩
  have hcommit := commitIndex_le_explained hinbox hrpc hexplained
  have hsame : (outcome op.perform ((run.states k).nodes id)).2.commitIndex =
      (op.handled ((run.states k).nodes id)).commitIndex := by
    rw [hdrained.same]
  rw [hsame] at hraised ⊢
  rcases le_max_iff.mp hcommit with hlow | hhigh
  · exact absurd hlow (not_le_of_gt hraised)
  · exact hhigh.trans hannounced

theorem request_commits_verified_threeRun :
    (outcome (Operation.step firstCommit).perform
        ((threeRun.states 9).nodes 2)).2.commitIndex = 2 ∧
      (outcome (Operation.step firstCommit).perform
        ((threeRun.states 9).nodes 2)).2.commitIndex <= 2 + 0 :=
  ⟨by decide +kernel,
    request_commits_verified threeRun 9 (show (2 : NodeId) ∈ _ by decide)
      (.step firstCommit) (by decide +kernel) rfl rfl (by decide +kernel)⟩

/-!
# Assertions
-/

theorem delivery_ne_mismatch (shadow : Shadow run)
    (hid : id ∈ membership.members) {op : Operation}
    (hmessage : message ∈ (run.states k).network)
    (hinbox : op.inbox = some message) :
    (outcome op.perform ((run.states k).nodes id)).1 ≠
      .error (.raftError "log matching invariant violated") := by
  have hnode := shadow.represents k hid
  have hbacked : forall other, op.inbox = some other ->
      Backed (shadow.worlds k) other := by
    intro other hother
    rw [hinbox] at hother
    cases hother
    exact (shadow.refines k).network message hmessage
  have hexplained := (ensures_perform hnode.well op).explained
  intro hfault
  rw [hfault] at hexplained
  cases hexplained with
  | refused hpath hrefusal =>
      generalize hsame : Fault.raftError "log matching invariant violated" =
        fault at hrefusal
      cases hrefusal with
      | argument => cases hsame
      | overflow => exact absurd hsame (by decide)
      | mismatch haccepts hlocal hincoming hterm hne =>
          rcases simulate_path hid hnode hbacked (run.terms k id hid) hpath with
            ⟨w, hacts, hrepresents⟩
          have hinv := (inv_steps (shadow.inv k) (steps_of_acts hacts)).left
          exact hne (accepted_entry_eq hrepresents hinv
            (fun other hother => backed_mono (sent_subset_acts hacts)
              (hbacked other hother)) haccepts hlocal hincoming hterm)

/--
The protocol's own assertions hold of every message in the network.  The terms
and roles that a member takes on before it compares the entries of a request
change neither its log nor its commit index.
-/
theorem assertions_hold (run : Execution storage random membership) (k : Nat)
    (hid : id ∈ membership.members)
    (hmessage : message ∈ (run.states k).network) :
    (forall op : Operation, op.inbox = some message ->
      (outcome op.perform ((run.states k).nodes id)).1 ≠
        .error (.raftError "log matching invariant violated")) ∧
      (forall request, message.rpc = .appendEntriesRequest request ->
        ((run.states k).nodes id).currentTerm <= request.term ->
          forall n : RaftNode storage random,
            n.log = ((run.states k).nodes id).log ->
              n.commitIndex = ((run.states k).nodes id).commitIndex ->
                request.previousLogIndex <= n.lastLogIndexLocked ->
                  (outcome (walkEntries message.fromNode request request.entries
                    (request.previousLogIndex + 1)) n).1 ≠ .ok .rejected) ∧
      (((run.states k).nodes id).state = .leader ->
        (message.toNode = id -> forall request,
          message.rpc = .appendEntriesRequest request ->
            request.term ≠ ((run.states k).nodes id).currentTerm) ∧
        forall response, message.rpc = .appendEntriesResponse response ->
          response.success = true ->
            response.term = ((run.states k).nodes id).currentTerm ->
              response.matchIndex <=
                ((run.states k).nodes id).lastLogIndexLocked) := by
  rcases exists_shadow run with ⟨shadow⟩
  refine ⟨?_, ?_, fun hleads => ⟨?_, ?_⟩⟩
  · intro op hinbox
    exact delivery_ne_mismatch shadow hid hmessage hinbox
  · intro request hrpc hterm n hlog hcommit hprevious
    exact comparison_ne_rejected shadow hid hmessage hrpc hterm hlog hcommit
      hprevious
  · intro hreceiver request hrpc
    exact request_term_ne shadow hid hmessage hrpc hleads hreceiver
  · intro response hrpc hsuccess hterm
    exact matchIndex_le shadow hid hmessage hrpc hleads hsuccess hterm

theorem assertions_hold_threeRun :
    firstReceipt ∈ (threeRun.states 7).network ∧
      ((threeRun.states 7).nodes 1).state = .leader ∧
      2 <= ((threeRun.states 7).nodes 1).lastLogIndexLocked :=
  ⟨by decide +kernel, by decide +kernel,
    ((assertions_hold threeRun 7 (show (1 : NodeId) ∈ _ by decide)
      (show firstReceipt ∈ _ by decide +kernel)).right.right
        (by decide +kernel)).right _ rfl rfl (by decide +kernel)⟩

end Runs

end Raft
end FTKV
