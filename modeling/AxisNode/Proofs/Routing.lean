import AxisNode.Routing

/-!
# What a delivery can change

A delivery visits some of the leaves of a route and nothing else, so what every leaf keeps the whole
route keeps.
-/

namespace AxisNode

variable {σ α β : Type}

namespace Leaf

/-- A leaf keeps what each of its messages keeps. -/
def Keeps (l : Leaf σ) (P : σ → Prop) : Prop :=
  ∀ kind payload s, P s → P (l.receive kind payload s).1

theorem reading_keeps {P : σ → Prop} {F : Family α}
    {handle : MessageKind → α → σ → σ × List Event}
    (h : ∀ kind a s, P s → P (handle kind a s).1) : (reading F handle).Keeps P := by
  intro kind payload s hs
  unfold reading
  dsimp only
  cases F.parse? kind payload with
  | none => exact hs
  | some a => exact h kind a s hs

theorem handling_keeps {P : σ → Prop} {F : Family α} {handle : α → σ → σ × List Event}
    (h : ∀ a s, P s → P (handle a s).1) : (handling F handle).Keeps P :=
  reading_keeps fun _ a s hs => h a s hs

/-- A leaf that queues keeps what every accepted message keeps. -/
theorem queueing_keeps {P : σ → Prop} {F : Family α} {wrap : α → β} {get : σ → Queue β}
    {set : Queue β → σ → σ}
    (h : ∀ a s q, (get s).push? (wrap a) = some q → P s → P (set q s)) :
    (queueing F wrap get set).Keeps P := by
  apply reading_keeps
  intro kind a s hs
  cases hq : (get s).push? (wrap a) with
  | none => exact hs
  | some q => exact h a s q hq hs

end Leaf

namespace Route

/-- The leaves of a route from left to right. -/
def leaves : Route σ → List (Leaf σ)
  | nothing => []
  | leaf l => [l]
  | both left right => left.leaves ++ right.leaves
  | gate _ inner => inner.leaves

theorem deliver_keeps {P : σ → Prop} (r : Route σ) (h : ∀ l ∈ r.leaves, l.Keeps P) (id : FrameId)
    (payload : List UInt8) (s : σ) (hs : P s) : P (r.deliver id payload s).1 := by
  induction r generalizing s with
  | nothing => exact hs
  | leaf l =>
      unfold deliver
      cases id.kind? with
      | none => exact hs
      | some k => exact h l (List.mem_singleton_self l) k payload s hs
  | both left right ihl ihr =>
      have hleft := ihl fun l hl => h l (List.mem_append_left _ hl)
      have hright := ihr fun l hl => h l (List.mem_append_right _ hl)
      unfold deliver
      cases id.kind? with
      | none => exact hs
      | some k =>
          have hfirst :
              P (if left.accepts k then left.deliver id payload s else (s, [])).1 := by
            split
            · exact hleft s hs
            · exact hs
          dsimp only
          split
          · exact hright _ hfirst
          · exact hfirst
  | gate admits inner ih =>
      unfold deliver
      split
      · cases id.kind? with
        | none => exact hs
        | some k =>
            dsimp only
            split
            · exact ih h s hs
            · exact hs
      · exact hs

end Route

end AxisNode
