import Mathlib.Data.List.DropRight
import Metering.Text.Lines

/-!
# Proofs — Text — Lines

Lines without the carriage returns at their ends (`withoutReturns`).  As far as these lines go, it does not matter how a
text is cut: its lines are what stands between its line feeds, but for an empty one at the end
(`map_withoutReturns_linesAtFeeds`), and a carriage return before each line feed changes none of them
(`map_withoutReturns_feedsWithReturns`).
-/

namespace Metering.Text

/-! ### Carriage returns at the end -/

theorem withoutReturns_ofList (cs : List Char) :
    withoutReturns (String.ofList cs) = String.ofList (cs.rdropWhile (· = '\r')) := by
  rw [withoutReturns, String.toList_ofList]
  rfl

/-- One more carriage return at the end is dropped with the others. -/
theorem withoutReturns_concat (cs : List Char) :
    withoutReturns (String.ofList (cs ++ ['\r'])) = withoutReturns (String.ofList cs) := by
  rw [withoutReturns_ofList, withoutReturns_ofList, List.rdropWhile_concat_pos _ _ _ rfl]

theorem withoutReturns_withoutReturn (cs : List Char) :
    withoutReturns (String.ofList (withoutReturn '\r' cs)) = withoutReturns (String.ofList cs) := by
  unfold withoutReturn
  split
  · rename_i last
    conv_rhs => rw [← List.dropLast_append_getLast? _ last]
    rw [withoutReturns_concat]
  · rfl

/-- What is left of a line decides what is left of it behind one more character. -/
theorem withoutReturns_cons_congr {cs ds : List Char} (c : Char)
    (h : withoutReturns (String.ofList cs) = withoutReturns (String.ofList ds)) :
    withoutReturns (String.ofList (c :: cs)) = withoutReturns (String.ofList (c :: ds)) := by
  rw [withoutReturns_ofList, withoutReturns_ofList, String.ofList_inj, List.rdropWhile,
    List.rdropWhile, List.reverse_inj] at h ⊢
  rw [List.reverse_cons, List.reverse_cons, List.dropWhile_append, List.dropWhile_append, h]

/-! ### Ways to cut a text -/

/-- What follows the last line feed is a line only if there is something; all else is cut alike. -/
theorem map_withoutReturns_linesAtFeeds (s : String) :
    ∃ rest, (∀ raw ∈ rest, raw = "") ∧
      (linesAtFeeds s).map withoutReturns = (lines s ++ rest).map withoutReturns := by
  obtain ⟨init, last, e⟩ : ∃ init last, pieces '\n' s.toList = init ++ [last] :=
    ⟨_, _, (List.dropLast_concat_getLast (pieces_ne_nil '\n' s.toList)).symm⟩
  have ended : ((init.map (withoutReturn '\r')).map String.ofList).map withoutReturns =
      (init.map String.ofList).map withoutReturns := by
    rw [List.map_map, List.map_map, List.map_map]
    exact List.map_congr_left fun cs _ => withoutReturns_withoutReturn cs
  rw [linesAtFeeds, lines, linesAt, e, List.dropLast_concat, List.getLast?_concat,
    Option.toList_some]
  by_cases empty : last = []
  · refine ⟨[""], fun raw h => List.mem_singleton.mp h, ?_⟩
    rw [List.filter_cons_of_neg (by simp [empty]), List.filter_nil, List.append_nil,
      List.map_append, List.map_append, List.map_append, ended, empty]
    rfl
  · refine ⟨[], fun raw h => (List.not_mem_nil h).elim, ?_⟩
    rw [List.filter_cons_of_pos (by simp [empty]), List.filter_nil, List.append_nil,
      List.map_append, List.map_append, List.map_append, List.map_append, ended]

/-- A line feed with a carriage return before it; other characters alone. -/
def returnedFeed (c : Char) : List Char :=
  if c = '\n' then ['\r', '\n'] else [c]

/-- A text with a carriage return put before each of its line feeds. -/
def feedsWithReturns (s : String) : String :=
  String.ofList (s.toList.flatMap returnedFeed)

theorem map_withoutReturns_feedsWithReturns (s : String) :
    (linesAtFeeds (feedsWithReturns s)).map withoutReturns =
      (linesAtFeeds s).map withoutReturns := by
  rw [linesAtFeeds, linesAtFeeds, feedsWithReturns, String.toList_ofList, List.map_map,
    List.map_map]
  induction s.toList with
  | nil => rfl
  | cons c cs ih =>
      rw [List.flatMap_cons]
      by_cases feed : c = '\n'
      · -- the carriage return ends a line that is empty but for it
        subst feed
        rw [returnedFeed, if_pos rfl, List.cons_append, List.cons_append, List.nil_append,
          pieces_cons_ne (by decide), pieces_cons_self, pieces_cons_self]
        exact congrArg₂ List.cons (withoutReturns_concat []) ih
      · obtain ⟨p, ps, hp⟩ := List.exists_cons_of_ne_nil (pieces_ne_nil '\n' cs)
        obtain ⟨q, qs, hq⟩ := List.exists_cons_of_ne_nil
          (pieces_ne_nil '\n' (cs.flatMap returnedFeed))
        rw [hp, hq, List.map_cons, List.map_cons, List.cons.injEq] at ih
        rw [returnedFeed, if_neg feed, List.cons_append, List.nil_append, pieces_cons_ne feed,
          pieces_cons_ne feed, hp, hq]
        exact congrArg₂ List.cons (withoutReturns_cons_congr c ih.1) ih.2

end Metering.Text
