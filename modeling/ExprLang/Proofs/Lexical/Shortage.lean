import ExprLang.Proofs.Lexical.Diagnostics
import ExprLang.Proofs.Lexical.Requests
import ExprLang.Scanner.Bounded

/-! # A token for which there is little room

Where the room on the stack ends in front of a token, the scanner has passed over a part of the gap at most, and the
token is still the next. Where it ends inside a token, characters of the token are lost, and the scanner stands
somewhere behind them. There is no third case (`nextWithin_cases`). -/

namespace ExprLang.Scanner

open Lexical

/-- Passing over a part of the gap first makes no difference. -/
theorem next_readOver {s : Scanner} {gap after : List Char} (h : s.rest = gap ++ after) (g : Gap gap) :
    (s.readOver gap after).next = s.next := by
  rcases lexes_cases after with final | ⟨more, kind, lexeme, piece, behind, rest, g', lexes⟩
  · have whole : FinalGap s.rest := h ▸ .append g final
    have part : FinalGap (s.readOver gap after).rest := final
    rw [next_eq_none whole, next_eq_none part, h]
    exact congrArg _ (readOver_append s gap _ _ _)
  · have whole : s.rest = (gap ++ more) ++ piece ++ behind := by rw [h, rest]; simp
    have part : (s.readOver gap after).rest = more ++ piece ++ behind := rest
    rw [next_eq whole (g.append g') lexes, next_eq part g' lexes]
    simp [Scanner.behind, readOver, Nat.add_assoc, Int.add_assoc]

theorem gap_takeWhile (text : List Char) : Gap (text.takeWhile (· ∈ blanks)) := by
  induction text with
  | nil => exact .nil
  | cons c text ih =>
    by_cases blank : c ∈ blanks
    · simpa [blank] using Gap.blank blank ih
    · simpa [blank] using Gap.nil

theorem skipBlanks_eq (s : Scanner) :
    s.skipBlanks = s.readOver (s.rest.takeWhile (· ∈ blanks)) (s.rest.dropWhile (· ∈ blanks)) :=
  pass_eq List.takeWhile_append_dropWhile.symm rfl

theorem next_skipBlanks (s : Scanner) : s.skipBlanks.next = s.next := by
  rw [skipBlanks_eq]
  exact next_readOver List.takeWhile_append_dropWhile.symm (gap_takeWhile s.rest)

theorem next_skipGap {s : Scanner} (h : s.skipGap.rest = []) : s.skipGap.next = s.next := by
  rw [next_of_rest_nil h, next, tokenHere?, h]

theorem walk_loseToken (s : Scanner) : Walk s s.skipGap.loseToken := by
  unfold loseToken
  split
  · exact (walk_pass s _).trans (.begin (walk_pass _ 1))
  · exact walk_next s

theorem Needs.token_le_most (needs : Needs) (c : Char) (behind : List Char) : needs.token c behind ≤ needs.most := by
  unfold Needs.token Needs.most
  split
  · split <;> omega
  · split <;> omega

/-- With less room than the scanner may need it returns the next token, or stops in front of it, or inside. -/
theorem nextWithin_cases (needs : Needs) (room : Nat) (s : Scanner) :
    (needs.gap ≤ room ∧ s.nextWithin needs room = (.ok s.next.1, s.next.2)) ∨
      (∃ t, room < needs.most ∧ s.nextWithin needs room = (.error .before, t) ∧ t.next = s.next ∧ Walk s t ∧
        t.diagnostics = s.diagnostics) ∨
      ∃ t, room < needs.most ∧ s.nextWithin needs room = (.error .inside, t) ∧ Walk s t := by
  unfold nextWithin
  split
  · next short => exact .inr (.inl ⟨s, Nat.lt_of_lt_of_le short needs.gap_le_most, rfl, rfl, .refl s, rfl⟩)
  · next enough =>
    split
    · next short =>
      have less : room < needs.most := Nat.lt_of_lt_of_le short.1 (by unfold Needs.most; omega)
      exact .inr (.inl ⟨_, less, rfl, next_skipBlanks s, walk_pass s _, rfl⟩)
    · split
      · next ended =>
        split
        · next short =>
          have less : room < needs.most := Nat.lt_of_lt_of_le short (by unfold Needs.most; omega)
          exact .inr (.inl ⟨_, less, rfl, next_skipGap ended, walk_pass s _, rfl⟩)
        · refine .inl ⟨Nat.le_of_not_lt enough, ?_⟩
          rw [next, tokenHere?, ended]
      · next c behind _ =>
        split
        · next short =>
          exact .inr (.inr ⟨_, Nat.lt_of_lt_of_le short (needs.token_le_most c behind), rfl, walk_loseToken s⟩)
        · exact .inl ⟨Nat.le_of_not_lt enough, rfl⟩

/-- Nothing is reported but what is wrong with the next token. -/
theorem diagnostics_nextWithin_prefix (s : Scanner) (needs : Needs) (room : Nat) :
    (s.nextWithin needs room).2.diagnostics.toList <+: s.next.2.diagnostics.toList := by
  have grown : s.diagnostics.toList <+: s.next.2.diagnostics.toList := by
    cases eq : s.next with
    | mk token after =>
      cases token with
      | none => exact diagnostics_of_next_none eq ▸ List.prefix_rfl
      | some token => exact diagnostics_of_next_some eq ▸ List.prefix_append _ _
  unfold nextWithin
  split
  · exact grown
  · split
    · exact grown
    · split
      · split <;> exact grown
      · split
        · unfold loseToken
          split
          · exact grown
          · exact List.prefix_rfl
        · exact List.prefix_rfl

/-- What is scanned in some room is scanned in more. -/
theorem nextWithin_mono {needs : Needs} {room room' : Nat} {s after : Scanner} {token : Option Token}
    (le : room ≤ room') (h : s.nextWithin needs room = (.ok token, after)) :
    s.nextWithin needs room' = (.ok token, after) := by
  unfold nextWithin at h ⊢
  split at h
  · cases h
  · next gap =>
    rw [if_neg (by omega)]
    split at h
    · cases h
    · next comment =>
      rw [if_neg (fun short => comment ⟨by omega, short.2⟩)]
      split at h
      · split at h
        · cases h
        · next ending => rwa [if_neg (by omega)]
      · split at h
        · cases h
        · next word => rwa [if_neg (by omega)]

end ExprLang.Scanner
