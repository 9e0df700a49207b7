import ExprLang.Text.Line
import ExprLang.Text.Utf8

/-! # Text that comes in

The lines of a text are free of newlines, and with a newline behind each of them they are the text again, or the text
with the newline that its last line lacks. Octets of ASCII are read as the characters they are. -/

namespace ExprLang.Text

/-! ### Lines -/

theorem newline_not_mem_lines (text : List Char) : ∀ line ∈ lines text, '\n' ∉ line := by
  fun_induction lines text with
  | case1 => exact List.forall_mem_nil _
  | case2 rest ih => exact List.forall_mem_cons.mpr ⟨List.not_mem_nil, ih⟩
  | case3 c rest other none ih =>
    refine List.forall_mem_singleton.mpr fun member => ?_
    exact other (List.mem_singleton.mp member).symm
  | case4 c rest other line others some ih =>
    rw [some] at ih
    obtain ⟨here, behind⟩ := List.forall_mem_cons.mp ih
    refine List.forall_mem_cons.mpr ⟨fun member => ?_, behind⟩
    rcases List.mem_cons.mp member with same | member
    · exact other same.symm
    · exact here member

theorem flatMap_lines (text : List Char) : (lines text).flatMap (· ++ ['\n']) =
    if text = [] ∨ text.getLast? = some '\n' then text else text ++ ['\n'] := by
  fun_induction lines text with
  | case1 => rfl
  | case2 rest ih =>
    rw [List.flatMap_cons, ih]
    cases rest with
    | nil => rfl
    | cons d rest => simp [apply_ite (List.cons '\n')]
  | case3 c rest other none ih =>
    -- A text without lines is empty.
    rw [none, List.flatMap_nil] at ih
    have ended : rest = [] := by
      split at ih
      · exact ih.symm
      · exact absurd ih.symm (List.append_ne_nil_of_right_ne_nil _ (List.cons_ne_nil _ _))
    subst ended
    have open_ : c ≠ '\n' := other
    simp [open_]
  | case4 c rest other line others some ih =>
    rw [some, List.flatMap_cons] at ih
    rw [List.flatMap_cons, List.cons_append, List.cons_append, ih]
    cases rest with
    | nil => cases some
    | cons d rest => simp [apply_ite (List.cons c)]

/-- The text with its line ends unified, as it is read from a file. -/
def unified (text : String) : String := String.ofList (unifyLineEnds text.toList)

theorem unifyLineEnds_eq_self {text : List Char} (h : '\r' ∉ text) : unifyLineEnds text = text := by
  fun_induction unifyLineEnds text with
  | case1 => rfl
  | case2 rest | case3 rest => exact absurd List.mem_cons_self h
  | case4 c rest _ _ ih => rw [ih fun member => h (List.mem_cons_of_mem c member)]

theorem unified_eq_self {text : String} (h : '\r' ∉ text.toList) : unified text = text := by
  rw [unified, unifyLineEnds_eq_self h, String.ofList_toList]

/-! ### Octets -/

namespace Utf8

theorem foldlM_step_ascii {octets : List UInt8} (h : ∀ b ∈ octets, b < 0x80) : ∀ d : Decoder, d.pending = none →
    ∃ position, octets.foldlM Decoder.step d =
      .ok ⟨position, none, (octets.map fun b => Char.ofNat b.toNat).reverse ++ d.read⟩ := by
  induction octets with
  | nil =>
    rintro ⟨position, pending, read⟩ rfl
    exact ⟨position, rfl⟩
  | cons b octets ih =>
    rintro ⟨position, pending, read⟩ rfl
    obtain ⟨low, behind⟩ := List.forall_mem_cons.mp h
    have first : Decoder.step ⟨position, none, read⟩ b = .ok ⟨position + 1, none, Char.ofNat b.toNat :: read⟩ :=
      if_pos low
    obtain ⟨position', rest⟩ := ih behind ⟨position + 1, none, Char.ofNat b.toNat :: read⟩ rfl
    refine ⟨position', ?_⟩
    rw [List.foldlM_cons, first]
    show octets.foldlM Decoder.step _ = _
    rw [rest, List.map_cons, List.reverse_cons, List.append_assoc]
    rfl

theorem decode_ascii {octets : List UInt8} (h : ∀ b ∈ octets, b < 0x80) :
    decode octets = .ok (String.ofList (octets.map fun b => Char.ofNat b.toNat)) := by
  obtain ⟨position, read⟩ := foldlM_step_ascii h {} rfl
  rw [decode, read]
  show Except.ok (String.ofList _) = _
  rw [List.append_nil, List.reverse_reverse]

end Utf8

end ExprLang.Text
