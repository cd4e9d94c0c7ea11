import Mathlib.Data.Finset.Card

/-!
# Quorum systems

A quorum system is a family of finite sets any two of which share an element.
Everything that is proved about votes and replication uses quorums through this
property alone.
-/

namespace FTKV
namespace Foundation

structure QuorumSystem (node : Type) where
  IsQuorum : Finset node -> Prop
  intersects : forall P Q : Finset node, IsQuorum P -> IsQuorum Q ->
    exists v, v ∈ P ∧ v ∈ Q

/-!
# Majorities

The sets with more than half of the members of a fixed finite set form a quorum
system.
-/

theorem exists_mem_of_majorities {node : Type} [DecidableEq node]
    {members P Q : Finset node} (hP : P ⊆ members) (hQ : Q ⊆ members)
    (hcardP : members.card / 2 + 1 <= P.card)
    (hcardQ : members.card / 2 + 1 <= Q.card) :
    exists v, v ∈ P ∧ v ∈ Q := by
  have hcard : members.card < P.card + Q.card := by
    lia
  rcases Finset.inter_nonempty_of_card_lt_card_add_card hP hQ hcard with ⟨v, hv⟩
  exact ⟨v, Finset.mem_inter.mp hv⟩

def majority {node : Type} [DecidableEq node] (members : Finset node) :
    QuorumSystem node where
  IsQuorum Q := Q ⊆ members ∧ members.card / 2 + 1 <= Q.card
  intersects := by
    intro P Q hP hQ
    exact exists_mem_of_majorities hP.left hQ.left hP.right hQ.right

end Foundation
end FTKV
