import Mathlib.Data.List.Chain
import Mathlib.Logic.Relation

/-! Nodes that are connected by topics. A node feeds those that read a topic it writes.
Along a line of nodes every one reads what the one before it writes; it has a loop as soon
as two of its topics are one, and none where every feed leads upwards. -/

namespace X2Navigation.Routing

open Relation

/-- Who reads and who writes which topic. -/
structure Wiring (N T : Type*) where
  reads : N → T → Prop
  writes : N → T → Prop

namespace Wiring
variable {N T : Type*} (g : Wiring N T)

def Feeds (a b : N) : Prop := ∃ t, g.writes a t ∧ g.reads b t

/-- What some node writes comes back to it. -/
def Loops : Prop := ∃ a, TransGen g.Feeds a a

/-- Each of the first `n` nodes reads its topic and writes the next. -/
def Line (n : ℕ) (node : ℕ → N) (topic : ℕ → T) : Prop :=
  ∀ i < n, g.reads (node i) (topic i) ∧ g.writes (node i) (topic (i + 1))

variable {g}

theorem not_loops_of_rank (rank : N → ℕ) (h : ∀ a b, g.Feeds a b → rank a < rank b) :
    ¬ g.Loops := by
  rintro ⟨a, hloop⟩
  have hlt : TransGen (· < ·) (rank a) (rank a) := hloop.lift rank fun a b hfeeds => h a b hfeeds
  rw [transGen_eq_self] at hlt
  exact Nat.lt_irrefl _ hlt

theorem Loops.mono {g' : Wiring N T} (h : g.Loops) (hfeeds : ∀ a b, g.Feeds a b → g'.Feeds a b) :
    g'.Loops := by
  obtain ⟨a, hloop⟩ := h
  exact ⟨a, TransGen.mono hfeeds _ _ hloop⟩

section Line
variable {n : ℕ} {node : ℕ → N} {topic : ℕ → T}

theorem Line.feeds (h : g.Line n node topic) {i : ℕ} (hi : i + 1 < n) :
    g.Feeds (node i) (node (i + 1)) :=
  ⟨topic (i + 1), (h i (by omega)).2, (h (i + 1) hi).1⟩

theorem Line.reaches (h : g.Line n node topic) {i j : ℕ} (hij : i ≤ j) (hj : j < n) :
    ReflTransGen g.Feeds (node i) (node j) := by
  induction j, hij using Nat.le_induction with
  | base => exact .refl
  | succ j hij ih => exact (ih (by omega)).tail (h.feeds hj)

/-- The node in front of the later topic feeds the one behind the earlier. -/
theorem Line.loops (h : g.Line n node topic) {i j : ℕ} (hij : i < j) (hj : j ≤ n)
    (hsame : topic i = topic j) : g.Loops := by
  obtain ⟨k, rfl⟩ : ∃ k, j = k + 1 := ⟨j - 1, by omega⟩
  have hback : g.Feeds (node k) (node i) :=
    ⟨topic (k + 1), (h k (by omega)).2, hsame ▸ (h i (by omega)).1⟩
  exact ⟨node i, TransGen.tail' (h.reaches (by omega) (by omega)) hback⟩

end Line

/-! ### Routes -/

/-- A way on from node to node. -/
def Route (g : Wiring N T) (route : List N) : Prop := route.IsChain g.Feeds

/-- Somebody feeds the last node of a route. -/
theorem Route.exists_feeds {a z : N} {route : List N} (h : g.Route (a :: (route ++ [z]))) :
    ∃ b, g.Feeds b z := by
  induction route generalizing a with
  | nil => exact ⟨a, (List.isChain_cons_cons.mp h).1⟩
  | cons b rest ih => exact ih (List.isChain_cons_cons.mp h).2

section Unique
variable {next : N → Option N} (hnext : ∀ a b, g.Feeds a b → next a = some b) {a z : N}
  {route route' : List N}
include hnext

/-- The first node of a route to another one feeds somebody. -/
theorem Route.next_ne_none (h : g.Route (a :: (route ++ [z]))) : next a ≠ none := by
  cases route with
  | nil => simp [hnext a z (List.isChain_cons_cons.mp h).1]
  | cons b rest => simp [hnext a b (List.isChain_cons_cons.mp h).1]

/-- Where every node feeds at most one, there is one route to a node that feeds none. -/
theorem Route.unique (hz : next z = none) (h : g.Route (a :: (route ++ [z])))
    (h' : g.Route (a :: (route' ++ [z]))) : route = route' := by
  induction route generalizing a route' with
  | nil =>
    cases route' with
    | nil => rfl
    | cons b rest =>
      obtain ⟨hab, hrest⟩ := List.isChain_cons_cons.mp h'
      have haz := hnext a z (List.isChain_cons_cons.mp h).1
      obtain rfl : z = b := Option.some.inj (haz.symm.trans (hnext a b hab))
      exact absurd hz (Route.next_ne_none hnext hrest)
  | cons b rest ih =>
    obtain ⟨hab, hrest⟩ := List.isChain_cons_cons.mp h
    cases route' with
    | nil =>
      have haz := hnext a z (List.isChain_cons_cons.mp h').1
      obtain rfl : z = b := Option.some.inj (haz.symm.trans (hnext a b hab))
      exact absurd hz (Route.next_ne_none hnext hrest)
    | cons c rest' =>
      obtain ⟨hac, hrest'⟩ := List.isChain_cons_cons.mp h'
      obtain rfl : b = c := Option.some.inj ((hnext a b hab).symm.trans (hnext a c hac))
      rw [ih hrest hrest']

end Unique

end Wiring

end X2Navigation.Routing
