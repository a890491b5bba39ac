import IrDialects.Proofs.Text.Pieces
import IrDialects.Wire.Issue

/-!
# Pointers say where an issue is

The path of an issue is found again in its pointer. A segment is escaped in two passes over the text,
and a reader undoes them in the opposite order, so that a segment which looks escaped is told from one
that is.
-/

namespace IrDialects.Issue

open Text (replaceAll)

/-- The text that an escaped segment stands for. -/
def unescape (cs : List Char) : List Char :=
  replaceAll ['~', '0'] ['~'] (replaceAll ['~', '1'] ['/'] cs)

/-- The segments of a JSON pointer: nothing, or segments with a slash in front of each. -/
def segments? (pointer : String) : Option (List String) :=
  match Text.pieces '/' pointer.toList with
  | [] :: segments => some (segments.map fun cs => String.ofList (unescape cs))
  | _ => none

/-- What the two passes write for a character. -/
def escapeChar (c : Char) : List Char :=
  if c = '~' then ['~', '0'] else if c = '/' then ['~', '1'] else [c]

theorem escapeSegment_eq_flatMap (s : String) : escapeSegment s = s.toList.flatMap escapeChar := by
  rw [escapeSegment, Text.replaceAll_singleton, Text.replaceAll_singleton, List.flatMap_assoc]
  refine List.flatMap_congr fun c _ => ?_
  by_cases hc : c = '~'
  · subst hc
    rfl
  · rw [if_neg hc, escapeChar, if_neg hc, List.flatMap_singleton]

/-- The first pass of the reader leaves what the first pass of the writer made. -/
theorem replaceAll_escaped (cs : List Char) :
    replaceAll ['~', '1'] ['/'] (cs.flatMap escapeChar) =
      cs.flatMap fun c => if c = '~' then ['~', '0'] else [c] := by
  rw [Text.replaceAll_pair (c := '/') rfl]
  · refine List.flatMap_congr fun c _ => ?_
    by_cases hc : c = '/'
    · subst hc
      rfl
    · rw [if_neg hc, escapeChar, if_neg hc]
  · intro c hc
    by_cases htilde : c = '~'
    · subst htilde
      exact .inr ⟨'0', by decide, by decide, rfl⟩
    · exact .inl ⟨htilde, by rw [escapeChar, if_neg htilde, if_neg hc]⟩

theorem unescape_escapeSegment (s : String) : unescape (escapeSegment s) = s.toList := by
  rw [unescape, escapeSegment_eq_flatMap, replaceAll_escaped, Text.replaceAll_pair (c := '~') rfl]
  · calc
      _ = s.toList.flatMap fun c => [c] := by
        refine List.flatMap_congr fun c _ => ?_
        by_cases hc : c = '~'
        · rw [if_pos hc, hc]
        · rw [if_neg hc, if_neg hc]
      _ = s.toList := List.flatMap_singleton' _
  · intro c hc
    exact .inl ⟨hc, if_neg hc⟩

theorem slash_notMem_escapeSegment (s : String) : '/' ∉ escapeSegment s :=
  Text.notMem_replaceAll _ (by decide) _

/-- The pieces of a pointer are an empty one and the escaped segments, none for the root. -/
theorem pieces_pointer (e : Issue) :
    Text.pieces '/' e.pointer.toList = [] :: e.path.map escapeSegment := by
  rw [pointer]
  cases hpath : e.path with
  | nil => rfl
  | cons s path =>
    have hjoin : '/' :: ['/'].intercalate ((s :: path).map escapeSegment) =
        ['/'].intercalate ([] :: (s :: path).map escapeSegment) := by
      rw [List.map_cons, List.intercalate_cons_cons, List.nil_append, List.singleton_append]
    rw [List.isEmpty_cons, if_neg Bool.false_ne_true, String.toList_ofList, hjoin]
    refine Text.pieces_intercalate ?_ (List.cons_ne_nil _ _)
    intro cs hcs
    rcases List.mem_cons.1 hcs with rfl | hcs
    · exact List.not_mem_nil
    · obtain ⟨segment, -, rfl⟩ := List.mem_map.1 hcs
      exact slash_notMem_escapeSegment segment

theorem segments?_pointer (e : Issue) : segments? e.pointer = some e.path := by
  have hsegments : (e.path.map escapeSegment).map (fun cs => String.ofList (unescape cs)) = e.path := by
    rw [List.map_map]
    refine (List.map_congr_left fun s _ => ?_).trans (List.map_id _)
    rw [Function.comp_apply, unescape_escapeSegment, String.ofList_toList, id]
  rw [segments?, pieces_pointer]
  exact congrArg some hsegments

example : segments? "/a~1b/~01/" = some ["a/b", "~1", ""] := by decide

/-- Reading the pointer of an issue gives its path, whatever the segments are. So pointers are equal
only if the paths are, and only the root has the empty one. -/
theorem pointers_lose_nothing :
    (∀ e : Issue, segments? e.pointer = some e.path) ∧
    (∀ e e' : Issue, e.pointer = e'.pointer ↔ e.path = e'.path) ∧
    ∀ e : Issue, e.pointer = "" ↔ e.path = [] := by
  have hinj (e e' : Issue) : e.pointer = e'.pointer ↔ e.path = e'.path := by
    constructor
    · intro h
      have hread := segments?_pointer e
      rw [h, segments?_pointer e'] at hread
      exact (Option.some.inj hread).symm
    · intro h
      rw [pointer, pointer, h]
  refine ⟨segments?_pointer, hinj, fun e => ?_⟩
  constructor
  · intro h
    have hread := segments?_pointer e
    rw [h] at hread
    exact (Option.some.inj hread).symm
  · intro h
    rw [pointer, h]
    rfl

end IrDialects.Issue
