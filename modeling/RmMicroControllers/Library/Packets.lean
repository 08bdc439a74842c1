import Mathlib.Data.List.Induction

/-!
# Messages in packets

A message is cut into packets of `k` elements. The packet that ends it is the first that is not
full, so a message whose length is a multiple of `k` is ended by an empty one. A receiver needs
to know nothing but `k` to tell the messages apart.

## Main results

- `reassemble_packets` — the receiver finds the messages that were sent
- `reassemble_unfinished` — and all but the last one while packets of that are missing
-/

namespace Packets

variable {α : Type*} {k : ℕ} {xs : List α}

/-- The packets of a message. -/
def packets (k : ℕ) (xs : List α) : List (List α) :=
  if 0 < k ∧ k ≤ xs.length then xs.take k :: packets k (xs.drop k) else [xs]
termination_by xs.length
decreasing_by
  rw [List.length_drop]
  omega

/-- What a receiver makes of a packet, with the messages that are complete and the beginning of
the next. -/
def receive (k : ℕ) (s : List (List α) × List α) (p : List α) : List (List α) × List α :=
  if p.length < k then (s.1 ++ [s.2 ++ p], []) else (s.1, s.2 ++ p)

/-- What a receiver makes of all packets. -/
def reassemble (k : ℕ) (ps : List (List α)) : List (List α) × List α :=
  ps.foldl (receive k) ([], [])

theorem packets_short (h : xs.length < k) : packets k xs = [xs] := by
  rw [packets]
  rw [if_neg (by omega)]

theorem packets_full (hk : 0 < k) (h : k ≤ xs.length) :
    packets k xs = xs.take k :: packets k (xs.drop k) := by
  rw [packets]
  rw [if_pos ⟨hk, h⟩]

theorem flatten_packets (k : ℕ) (xs : List α) : (packets k xs).flatten = xs := by
  induction xs using packets.induct k with
  | case1 xs h ih =>
    rw [packets_full h.1 h.2, List.flatten_cons, ih, List.take_append_drop]
  | case2 xs h =>
    rw [packets]
    rw [if_neg h, List.flatten_singleton]

/-- The packets of a message complete it. -/
theorem receive_packets (hk : 0 < k) (msgs : List (List α)) (got xs : List α) :
    (packets k xs).foldl (receive k) (msgs, got) = (msgs ++ [got ++ xs], []) := by
  induction xs using packets.induct k generalizing got with
  | case1 xs h ih =>
    have hfull : ¬(xs.take k).length < k := by
      rw [List.length_take]
      omega
    rw [packets_full h.1 h.2, List.foldl_cons, receive, if_neg hfull, ih, List.append_assoc,
      List.take_append_drop]
  | case2 xs h =>
    have hshort : xs.length < k := by omega
    rw [packets_short hshort, List.foldl_cons, receive, if_pos hshort, List.foldl_nil]

/-- The receiver finds the messages that were sent. -/
theorem reassemble_packets (hk : 0 < k) (msgs : List (List α)) :
    reassemble k (msgs.flatMap (packets k)) = (msgs, []) := by
  rw [reassemble]
  induction msgs using List.reverseRecOn with
  | nil => rfl
  | append_singleton msgs xs ih =>
    rw [List.flatMap_append, List.foldl_append, ih, List.flatMap_singleton, receive_packets hk,
      List.nil_append]

/-- Packets that others of the same message follow are all full. -/
theorem receive_unfinished {pre rest : List (List α)} (hk : 0 < k) (h : pre ++ rest = packets k xs)
    (hrest : rest ≠ []) (msgs : List (List α)) (got : List α) :
    pre.foldl (receive k) (msgs, got) = (msgs, got ++ pre.flatten) := by
  induction xs using packets.induct k generalizing pre got with
  | case1 xs hx ih =>
    cases pre with
    | nil => rw [List.foldl_nil, List.flatten_nil, List.append_nil]
    | cons p pre =>
      rw [packets_full hx.1 hx.2, List.cons_append] at h
      obtain ⟨rfl, hpre⟩ := List.cons.inj h
      have hfull : ¬(xs.take k).length < k := by
        rw [List.length_take]
        omega
      rw [List.foldl_cons, receive, if_neg hfull, ih hpre, List.flatten_cons, List.append_assoc]
  | case2 xs hx =>
    cases pre with
    | nil => rw [List.foldl_nil, List.flatten_nil, List.append_nil]
    | cons p pre =>
      rw [packets_short (by omega), List.cons_append] at h
      exact absurd (List.append_eq_nil_iff.mp (List.cons.inj h).2).2 hrest

/-- While packets of the last message are missing, the receiver has a beginning of it. -/
theorem reassemble_unfinished {pre rest : List (List α)} (hk : 0 < k)
    (h : pre ++ rest = packets k xs) (hrest : rest ≠ []) (msgs : List (List α)) :
    ∃ got, got <+: xs ∧ reassemble k (msgs.flatMap (packets k) ++ pre) = (msgs, got) := by
  refine ⟨pre.flatten, ⟨rest.flatten, ?_⟩, ?_⟩
  · rw [← List.flatten_append, h, flatten_packets]
  · have hmsgs : (msgs.flatMap (packets k)).foldl (receive k) ([], []) = (msgs, []) :=
      reassemble_packets hk msgs
    rw [reassemble, List.foldl_append, hmsgs, receive_unfinished hk h hrest, List.nil_append]

end Packets
