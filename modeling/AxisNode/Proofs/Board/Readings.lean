import AxisNode.Proofs.Board.Encoder

/-!
# One reading after another

An encoder is read after each of its movements. Whatever the movements, the readings add up the
shortest ways round the sixteen bits of the counter. None of them is lost or counted twice where the
counter goes round, so as long as every movement is in reach the readings show the true counts, and
these wrap only where their own thirty-two bits end.
-/

namespace AxisNode

namespace Encoder

/-- What an encoder shows when it is read after each movement. -/
def readings (e : Encoder) : List Int → List Int32
  | [] => []
  | counts :: movements => (e.turn counts).read.position :: (e.turn counts).read.readings movements

variable {e : Encoder} {stretches : List Int}

/-- A movement that is read is one more stretch. -/
theorem Follows.turn_read (h : e.Follows ⟨stretches, 0⟩) (counts : Int) :
    (e.turn counts).read.Follows ⟨stretches ++ [counts], 0⟩ := by
  have hread := (h.turn counts).read
  rwa [Travel.cut, Int.zero_add] at hread

theorem Follows.getElem?_readings (h : e.Follows ⟨stretches, 0⟩) (movements : List Int) {n : Nat}
    (hn : n < movements.length) :
    (e.readings movements)[n]? =
      some (Int32.ofInt ((stretches ++ movements.take (n + 1)).map shortestWay).sum) := by
  induction movements generalizing e stretches n with
  | nil => exact absurd hn (Nat.not_lt_zero n)
  | cons counts movements ih =>
      have hnext := h.turn_read counts
      cases n with
      | zero =>
          rw [readings, List.getElem?_cons_zero, hnext.position, List.take_succ_cons,
            List.take_zero]
      | succ n =>
          rw [readings, List.getElem?_cons_succ, ih hnext (Nat.lt_of_succ_lt_succ hn),
            List.take_succ_cons, List.append_assoc, List.singleton_append]

/-- An encoder that is new or was reset, and is read after each of its movements: if every movement
is in reach, each reading shows the counts of all movements so far, wrapped to thirty-two bits. -/
theorem nth_reading_shows_true_count (used : Encoder) {movements : List Int}
    (hreach : ∀ counts ∈ movements, InReach counts) {n : Nat} (hn : n < movements.length) :
    let shown := Int32.ofInt (movements.take (n + 1)).sum
    (({} : Encoder).readings movements)[n]? = some shown ∧
      (used.reset.readings movements)[n]? = some shown := by
  intro shown
  have hnew : (({} : Encoder).readings movements)[n]? = some shown := by
    have hways := follows_new.getElem?_readings movements hn
    rwa [List.nil_append, map_shortestWay_of_inReach fun counts hc =>
      hreach counts (List.mem_of_mem_take hc)] at hways
  exact ⟨hnew, hnew⟩

/-- The longest movement forward, until the count goes round its thirty-two bits, and movements
back round the counter. -/
theorem nth_reading_shows_true_count_of_longest :
    let used : Encoder := { counter := 5, last := 7, position := -3 }
    (∀ counts ∈ List.replicate 65539 32767, InReach counts) ∧
      65538 < (List.replicate 65539 (32767 : Int)).length ∧
      (used.reset.readings (List.replicate 65539 32767))[65538]? = some (-2147450883 : Int32) ∧
      (({} : Encoder).readings [-32768, -32768, 32767, -32768])[3]? = some (-65537 : Int32) := by
  intro used
  have hreach : ∀ counts ∈ List.replicate 65539 32767, InReach counts := by
    intro counts hc
    rw [List.eq_of_mem_replicate hc]
    decide
  have hlength : 65538 < (List.replicate 65539 (32767 : Int)).length := by
    rw [List.length_replicate]
    decide
  refine ⟨hreach, hlength, ?_, ?_⟩
  · rw [(nth_reading_shows_true_count used hreach hlength).2, List.take_replicate,
      List.sum_replicate_int]
    decide
  · exact (nth_reading_shows_true_count used (by decide) (by decide)).1

end Encoder

end AxisNode
