import Mathlib.Algebra.Order.BigOperators.Group.List
import Mathlib.Algebra.Order.Group.Nat
import GateServer.HttpConnection.Params

/-!
# The parameters of a client

The keys and values that a client has encoded are split correctly. `pre_parse_get_params`
then applies the encoding again instead of its inverse, so they arrive unchanged only
where encoding changes nothing.
-/

namespace GateServer.HttpConnection

open Interact

def pairText (p : Bytes × Bytes) : Bytes := urlEncode p.1 ++ 61 :: urlEncode p.2

/-- The target written by a client that encodes its parameters. -/
def target (path : Bytes) (pairs : List (Bytes × Bytes)) : Bytes :=
  path ++ 63 :: [38].intercalate (pairs.map pairText)

def recode (str : Bytes) : Bytes := urlEncode (urlEncode str)

theorem keyValue_pairText (p : Bytes × Bytes) :
    keyValue (pairText p) = some (urlEncode p.1, urlEncode p.2) := by
  have hnot : 61 ∉ urlEncode p.1 := not_mem_urlEncode rfl (by decide) (by decide) p.1
  obtain ⟨htake, hdrop⟩ := Pieces.span_cons (y := urlEncode p.2) hnot
  rw [keyValue, pairText, if_pos (by simp), htake, hdrop]
  rfl

theorem ampersand_not_mem_pairText (p : Bytes × Bytes) : 38 ∉ pairText p := by
  have hnot : ∀ str, 38 ∉ urlEncode str := not_mem_urlEncode rfl (by decide) (by decide)
  simp [pairText, hnot]

theorem rawPairs_target {path : Bytes} (h : 63 ∉ path) {pairs : List (Bytes × Bytes)}
    (hne : pairs ≠ []) :
    rawPairs (target path pairs) = pairs.map (Prod.map urlEncode urlEncode) := by
  have hquery : queryOf (target path pairs) = [38].intercalate (pairs.map pairText) := by
    rw [queryOf, target, (Pieces.span_cons h).2, List.tail_cons]
  have hpieces : ∀ piece ∈ pairs.map pairText, 38 ∉ piece := by
    intro piece hpiece
    obtain ⟨p, -, rfl⟩ := List.mem_map.mp hpiece
    exact ampersand_not_mem_pairText p
  rw [rawPairs, hquery, List.splitOn_intercalate 38 hpieces (by simpa using hne)]
  rw [List.filterMap_map, ← List.filterMap_eq_map]
  exact List.filterMap_congr fun p _ => keyValue_pairText p

theorem grammar_target {path : Bytes} (h : 63 ∉ path) {pairs : List (Bytes × Bytes)}
    (hne : pairs ≠ []) (hkeys : (pairs.map Prod.fst).Nodup) :
    grammar (target path pairs) =
      { getUrl := path, getParams := pairs.map (Prod.map recode recode) } := by
  have hraw := rawPairs_target h hne
  have hnodup : ((rawPairs (target path pairs)).map Prod.fst).Nodup := by
    have hencoded := hkeys.map (f := urlEncode) fun _ _ => urlEncode_inj
    rw [List.map_map] at hencoded
    rw [hraw, List.map_map]
    exact hencoded
  rw [grammar, Params.ofPairs_of_nodup hnodup, hraw, urlOf, target, (Pieces.span_cons h).1,
    List.map_map]
  rfl

theorem recode_cons (b : UInt8) (str : Bytes) :
    recode (b :: str) = urlEncode (urlEncodeByte b) ++ recode str :=
  List.flatMap_append

theorem recode_of_unreserved {str : Bytes} (h : ∀ b ∈ str, unreserved b = true) :
    recode str = str := by
  induction str with
  | nil => rfl
  | cons b str ih =>
    rw [List.forall_mem_cons] at h
    rw [recode_cons, ih h.2, urlEncodeByte_kept h.1]
    exact congrArg (· ++ str) (List.flatMap_singleton .. |>.trans (urlEncodeByte_kept h.1))

theorem length_recoded : ∀ b : UInt8, 1 ≤ (urlEncode (urlEncodeByte b)).length ∧
    (unreserved b = false → 1 < (urlEncode (urlEncodeByte b)).length) :=
  forall_byte (by decide +kernel)

theorem length_le_recode (str : Bytes) : str.length ≤ (recode str).length := by
  induction str with
  | nil => exact Nat.le_refl _
  | cons b str ih =>
    rw [recode_cons, List.length_append, List.length_cons, Nat.add_comm]
    exact Nat.add_le_add (length_recoded b).1 ih

theorem length_lt_recode {str : Bytes} (hb : b ∈ str) (h : unreserved b = false) :
    str.length < (recode str).length := by
  induction str with
  | nil => exact absurd hb List.not_mem_nil
  | cons a str ih =>
    rw [recode_cons, List.length_append, List.length_cons, Nat.add_comm]
    obtain rfl | hb := List.mem_cons.mp hb
    · exact Nat.add_lt_add_of_lt_of_le ((length_recoded _).2 h) (length_le_recode str)
    · exact Nat.add_lt_add_of_le_of_lt (length_recoded a).1 (ih hb)

def pairLength (p : Bytes × Bytes) : Nat := p.1.length + p.2.length

/-- A reserved byte makes the parameters longer as a whole, so they are not a permutation of
the client's either. -/
theorem unreserved_of_perm {pairs : List (Bytes × Bytes)}
    (h : List.Perm (pairs.map (Prod.map recode recode)) pairs) :
    ∀ p ∈ pairs, ∀ b ∈ p.1 ++ p.2, unreserved b = true := by
  intro p hp b hb
  by_contra hkept
  have hreserved := Bool.eq_false_iff.mpr hkept
  have hle : ∀ q ∈ pairs, pairLength q ≤ pairLength (Prod.map recode recode q) := fun q _ =>
    Nat.add_le_add (length_le_recode q.1) (length_le_recode q.2)
  have hlt : pairLength p < pairLength (Prod.map recode recode p) := by
    obtain hb | hb := List.mem_append.mp hb
    · exact Nat.add_lt_add_of_lt_of_le (length_lt_recode hb hreserved) (length_le_recode p.2)
    · exact Nat.add_lt_add_of_le_of_lt (length_le_recode p.1) (length_lt_recode hb hreserved)
  have hsum := List.sum_lt_sum pairLength (pairLength ∘ Prod.map recode recode) hle ⟨p, hp, hlt⟩
  rw [← List.map_map, (h.map pairLength).sum_eq] at hsum
  exact Nat.lt_irrefl _ hsum

theorem map_recode {pairs : List (Bytes × Bytes)}
    (h : ∀ p ∈ pairs, ∀ b ∈ p.1 ++ p.2, unreserved b = true) :
    pairs.map (Prod.map recode recode) = pairs := by
  refine (List.map_congr_left fun p hp => ?_).trans (List.map_id pairs)
  have hkey := recode_of_unreserved fun b hb => h p hp b (List.mem_append_left _ hb)
  have hvalue := recode_of_unreserved fun b hb => h p hp b (List.mem_append_right _ hb)
  exact Prod.ext hkey hvalue

/-- GET parameters arrive as the client meant them iff every byte of them is one that
`UrlEncode` leaves unchanged. -/
theorem params_arrive_iff {path : Bytes} (hpath : 63 ∉ path) {pairs : List (Bytes × Bytes)}
    (hne : pairs ≠ []) (hkeys : (pairs.map Prod.fst).Nodup) :
    ((preParseGetParams (target path pairs)).1 = path ∧
      (preParseGetParams (target path pairs)).2.Same pairs) ↔
    ∀ p ∈ pairs, ∀ b ∈ p.1 ++ p.2, unreserved b = true := by
  have hgrammar := grammar_target hpath hne hkeys
  have hnodup := nodup_grammar (target path pairs)
  rw [preParseGetParams_grammar, hgrammar]
  rw [hgrammar] at hnodup
  rw [Params.same_iff_perm hnodup hkeys]
  constructor
  · rintro ⟨-, hperm⟩
    exact unreserved_of_perm hperm
  · intro hbytes
    exact ⟨rfl, by rw [map_recode hbytes]⟩

theorem params_arrive_plain :
    (preParseGetParams (target [47, 103] [([110], [97, 110, 110]), ([112], [50])])).2.Same
      [([110], [97, 110, 110]), ([112], [50])] := by
  have hbytes : ∀ p ∈ [(([110] : Bytes), ([97, 110, 110] : Bytes)), ([112], [50])],
      ∀ b ∈ p.1 ++ p.2, unreserved b = true := by
    simp [unreserved, isAlnum]
  exact ((params_arrive_iff (by decide) (by decide) (by decide)).mpr hbytes).2

/-- The value `a b` is written `a+b` and arrives as `a%2Bb`. -/
theorem space_arrives_encoded :
    63 ∉ ([47] : Bytes) ∧ (([([107], [97, 32, 98])] : Params).map Prod.fst).Nodup ∧
    ¬ (preParseGetParams (target [47] [([107], [97, 32, 98])])).2.Same
      [([107], [97, 32, 98])] ∧
    (preParseGetParams (target [47] [([107], [97, 32, 98])])).2 =
      [([107], [97, 37, 50, 66, 98])] := by
  refine ⟨by decide, by decide, fun h => ?_, by decide⟩
  exact absurd (h [107]) (by decide)

end GateServer.HttpConnection
