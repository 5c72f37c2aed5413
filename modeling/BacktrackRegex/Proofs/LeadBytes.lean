import BacktrackRegex.Graph.Lead
import BacktrackRegex.Proofs.Boundaries
import BacktrackRegex.Proofs.Registers
import BacktrackRegex.Proofs.Regions

/-! Lead bytes. A node that shows one succeeds only where that byte stands, and where it stands a
character starts. So no match begins between one such byte and the next. -/
namespace BacktrackRegex

namespace Text

theorem isBoundary_of_byte {t : Text} {text : String} {b : UInt8} {p : Nat}
    (first : byte? text 0 = some b) (here : byte? t.string p = some b) : t.isBoundary p = true := by
  unfold byte? at first here
  split at first
  · split at here
    · next inside =>
      cases first
      refine isBoundary_iff.mpr (String.Pos.Raw.isValid_iff_isUTF8FirstByte.mpr (.inr ⟨inside, ?_⟩))
      rw [Option.some.inj here]
      exact String.isUTF8FirstByte_getUTF8Byte_zero
    · cases here
  · cases first

theorem byte?_of_lt {text : String} {p : Nat} (inside : p < text.utf8ByteSize) :
    byte? text p = some (text.getUTF8Byte ⟨p⟩ inside) := by
  rw [byte?, dif_pos inside]

theorem byte?_of_ge {text : String} {p : Nat} (outside : text.utf8ByteSize ≤ p) :
    byte? text p = none := by
  rw [byte?, dif_neg (Nat.not_lt.mpr outside)]

theorem findByte_some {t : Text} {b : UInt8} {p q : Nat} (found : t.findByte b p = some q) :
    byte? t.string q = some b ∧ ∀ r, p ≤ r → r < q → byte? t.string r ≠ some b := by
  fun_induction findByte t b p with
  | case1 p inside here =>
    cases found
    exact ⟨by rw [byte?_of_lt inside, here], by omega⟩
  | case2 p inside other ih =>
    obtain ⟨there, between⟩ := ih found
    refine ⟨there, fun r low high => ?_⟩
    rcases Nat.eq_or_lt_of_le low with rfl | above
    · rw [byte?_of_lt inside]
      exact fun same => other (Option.some.inj same)
    · exact between r above high
  | case3 => cases found

theorem findByte_none {t : Text} {b : UInt8} {p : Nat} (missing : t.findByte b p = none) {r : Nat}
    (low : p ≤ r) : byte? t.string r ≠ some b := by
  fun_induction findByte t b p with
  | case1 => cases missing
  | case2 p inside other ih =>
    rcases Nat.eq_or_lt_of_le low with rfl | above
    · rw [byte?_of_lt inside]
      exact fun same => other (Option.some.inj same)
    · exact ih missing above
  | case3 p outside =>
    have past : t.string.utf8ByteSize ≤ r := Nat.le_trans (Nat.le_of_not_lt outside) low
    rw [byte?_of_ge past]
    intro same
    cases same

end Text

/-- An attempt at `p` that succeeds only if the byte `b` stands there. -/
def Leads (t : Text) (b : UInt8) (p : Nat) (attempt : MatchState → Attempted) : Prop :=
  ∀ {s q s'}, attempt s = .ok (some q, s') → Text.byte? t.string p = some b

namespace Leads

variable {g : Graph} {t : Text} {b : UInt8} {p : Nat} {visit : Visit}

theorem firstBranch {branch : NodeId} (leads : Leads t b p (visit branch p)) :
    Leads t b p (firstBranch visit [branch] p) := by
  intro s q s' ok
  simp only [BacktrackRegex.firstBranch, List.map_cons, List.map_nil, firstSuccess] at ok
  split at ok
  · cases ok
  · obtain ⟨stop, _, answer⟩ | ⟨before, _, rest⟩ := Attempted.orElse_success ok
    · exact leads answer
    · cases rest

theorem group {slot : Nat} {branch : NodeId} (leads : Leads t b p (visit branch p)) :
    Leads t b p (Attempt.group visit slot [branch] p) := by
  intro s q s' ok
  obtain ⟨prior, _, ok⟩ := bind_success ok
  obtain ⟨begun, _, ok⟩ := bind_success ok
  exact firstBranch leads (Attempted.orUndo_some ok)

theorem atomic {slot next : Nat} {branch : NodeId} {inner : Frame}
    (leads : Leads t b p (visit branch p)) :
    Leads t b p (Attempt.atomic visit slot [branch] inner next p) := by
  intro s q s' ok
  obtain ⟨prior, _, ok⟩ := bind_success ok
  obtain ⟨saved, _, ok⟩ := bind_success ok
  obtain ⟨begun, _, ok⟩ := bind_success ok
  obtain ⟨⟨found, middle⟩, answer, ok⟩ := bind_success ok
  cases found with
  | some commit => exact firstBranch leads answer
  | none =>
    obtain ⟨after, _, failed⟩ := bind_success ok
    cases failed

theorem iterate {l : Loop} (leads : Leads t b p (visit l.body p)) :
    Leads t b p (Attempt.iterate visit l p) := by
  intro s q s' ok
  unfold Attempt.iterate at ok
  split at ok
  · cases ok
  · obtain ⟨prior, _, ok⟩ := bind_success ok
    obtain ⟨begun, _, ok⟩ := bind_success ok
    exact leads (Attempted.orUndo_some ok)

theorem loop {l : Loop} (needed : 0 < l.min) (leads : Leads t b p (visit l.body p)) :
    Leads t b p (Attempt.loop visit l p) := by
  intro s q s' ok
  obtain ⟨priorCount, _, ok⟩ := bind_success ok
  obtain ⟨prior, _, ok⟩ := bind_success ok
  obtain ⟨zeroed, wrote, ok⟩ := bind_success ok
  obtain ⟨begun, wrote', ok⟩ := bind_success ok
  obtain ⟨bound, rfl⟩ := MatchState.setCount_success.mp wrote
  obtain ⟨_, rfl⟩ := MatchState.setConsumed_success.mp wrote'
  obtain ⟨n, count, answer⟩ := bind_success (Attempted.orUndo_some ok)
  obtain rfl : n = 0 := by
    have read := MatchState.count_success.mp count
    simpa [Registers.putConsumed, Registers.putCount, bound] using read.symm
  have again {s q s'} (ok : (if belowMax 0 l.max then Attempt.iterate visit l p s
      else return (none, s)) = .ok (some q, s')) : Text.byte? t.string p = some b := by
    split at ok
    · exact iterate leads ok
    · cases ok
  have few : ¬l.min ≤ 0 := by omega
  simp only [few, decide_false, Bool.false_and, Bool.false_eq_true, if_false] at answer
  split at answer
  · obtain ⟨_, _, answer⟩ | ⟨_, _, failed⟩ := Attempted.orElse_success answer
    · exact again answer
    · cases failed
  · exact again answer

theorem leafEnds_single {leaf : Attempt.LeafEnd} {n : Nat} {ends : List Nat}
    (stuck : ∀ q, leaf p ≠ .ok (some q)) (ok : Attempt.leafEnds leaf n p = .ok ends) :
    ends = [p] := by
  cases n with
  | zero => exact (pure_success ok).symm
  | succ n =>
    obtain ⟨found, ended, ok⟩ := bind_success ok
    cases found with
    | some q => exact absurd ended (stuck q)
    | none => exact (pure_success ok).symm

theorem leafLoopGreedy {leaf : Attempt.LeafEnd} {min : Nat} {max : Option Nat} {next : NodeId}
    (needed : 0 < min) (leads : ∀ q, leaf p = .ok (some q) → Text.byte? t.string p = some b) :
    Leads t b p (Attempt.leafLoopGreedy visit t leaf min max next p) := by
  intro s q s' ok
  by_cases first : ∃ q, leaf p = .ok (some q)
  · obtain ⟨q, ended⟩ := first
    exact leads q ended
  · obtain ⟨ends, reached, ok⟩ := bind_success ok
    rw [leafEnds_single (not_exists.mp first) reached, List.drop_of_length_le needed] at ok
    cases ok

theorem leafLoopReluctant {leaf : Attempt.LeafEnd} {next : NodeId} {n required : Nat}
    (needed : 0 < required) (leads : ∀ q, leaf p = .ok (some q) → Text.byte? t.string p = some b) :
    Leads t b p (Attempt.leafLoopReluctant visit leaf next n required p) := by
  intro s q s' ok
  unfold Attempt.leafLoopReluctant at ok
  split at ok
  · cases ok
  · rw [if_neg (Nat.ne_of_gt needed)] at ok
    obtain ⟨_, _, failed⟩ | ⟨_, _, rest⟩ := Attempted.orElse_success ok
    · cases failed
    · cases n with
      | zero => cases rest
      | succ n =>
        obtain ⟨found, ended, rest⟩ := bind_success rest
        cases found with
        | some q => exact leads q ended
        | none => cases rest

end Leads

theorem literalEnd_leads {t : Text} {text : String} {b : UInt8} {p q : Nat}
    (first : Text.byte? text 0 = some b) (found : literalEnd text false t p = .ok (some q)) :
    Text.byte? t.string p = some b := by
  have nonempty : 0 < text.utf8ByteSize := by
    apply Nat.pos_of_ne_zero
    intro void
    rw [Text.byte?_of_ge (Nat.le_of_eq void)] at first
    cases first
  obtain ⟨_, _, found⟩ := bind_success found
  cases same : t.hasBytes text p with
  | true => rw [← first, Text.hasBytes_iff.mp same 0 nonempty, Nat.add_zero]
  | false =>
    simp only [same, Bool.false_eq_true, if_false] at found
    cases found

namespace Graph

variable {g : Graph} {t : Text} {b : UInt8} {id : NodeId}

theorem leafEnd_leads {s : MatchState} {deep p q : Nat}
    (lead : Node.leadByte? g.nodes deep id = some b) (found : g.leafEnd t s id p = .ok (some q)) :
    Text.byte? t.string p = some b := by
  cases deep with
  | zero => cases lead
  | succ deep =>
    obtain ⟨n, node, found⟩ := bind_success found
    rw [Node.leadByte?, node_success.mp node] at lead
    cases n with
    | literal text ignoreCase next =>
      cases ignoreCase with
      | true => cases lead
      | false => exact literalEnd_leads lead found
    | charClass _ _ | anchor _ _ | backReference _ _ _ => cases lead
    | _ => cases found

/-- A node that shows a lead byte succeeds only where the byte stands. The induction is on the
visits; the node that shows the byte is visited at the same offset. -/
theorem attemptWithin_leads {deep : Nat} (lead : Node.leadByte? g.nodes deep id = some b)
    (depth p : Nat) : Leads t b p (g.attemptWithin t depth id p) := by
  induction depth generalizing id deep with
  | zero =>
    intro s q s' ok
    cases ok
  | succ depth ih =>
    intro s q s' ok
    unfold attemptWithin at ok
    split at ok
    · cases ok
    · next s _ =>
      obtain ⟨⟨stop, after⟩, visited, last⟩ := bind_success ok
      cases pure_success last
      cases deep with
      | zero => cases lead
      | succ deep =>
        have whole := lead
        obtain ⟨n, node, ok⟩ := bind_success visited
        rw [Node.leadByte?, node_success.mp node] at lead
        cases n with
        | literal text ignoreCase next =>
          obtain ⟨found, ended, ok⟩ := bind_success ok
          cases found with
          | some stop => exact leafEnd_leads whole ended
          | none => cases ok
        | sequence children next =>
          cases children with
          | nil => cases lead
          | cons first rest => exact ih lead ok
        | group slot capture branches next =>
          match branches with
          | [branch] => exact Leads.group (ih lead) ok
          | [] | _ :: _ :: _ => cases lead
        | atomic slot branches inner next =>
          match branches with
          | [branch] => exact Leads.atomic (ih lead) ok
          | [] | _ :: _ :: _ => cases lead
        | loop l =>
          dsimp only at lead
          split at lead
          · next needed => exact Leads.loop needed (ih lead) ok
          · cases lead
        | leafLoop leaf min max greedy next =>
          dsimp only at lead
          split at lead
          · next needed =>
            have first (q : Nat) (ended : g.leafEnd t s leaf p = .ok (some q)) :
                Text.byte? t.string p = some b := leafEnd_leads lead ended
            dsimp only at ok
            split at ok
            · exact Leads.leafLoopGreedy needed first ok
            · exact Leads.leafLoopReluctant needed first ok
          · cases lead
        | _ => cases lead

theorem leadByte?_first {nodes : Array Node} {deep : Nat}
    (lead : Node.leadByte? nodes deep id = some b) : ∃ text, Text.byte? text 0 = some b := by
  induction deep generalizing id with
  | zero => cases lead
  | succ deep ih =>
    unfold Node.leadByte? at lead
    split at lead
    · next text _ _ => exact ⟨text, lead⟩
    · exact ih lead
    · exact ih lead
    · exact ih lead
    · split at lead
      · exact ih lead
      · cases lead
    · split at lead
      · exact ih lead
      · cases lead
    · cases lead

end Graph

end BacktrackRegex
