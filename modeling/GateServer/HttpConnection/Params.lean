import Mathlib.Data.Fintype.Basic
import GateServer.HttpConnection
import GateServer.Interact.Pieces

/-!
# The grammar of a target

`pre_parse_get_params` as it is written, with a scanning loop that erases what it has
processed, and the grammar that it implements.
-/

namespace GateServer.HttpConnection

open Interact

-- ---------------------------------------------------------------------------
-- Parameters as a map
-- ---------------------------------------------------------------------------

namespace Params

/-- Equality as maps: the order of the keys is ignored. -/
def Same (p q : Params) : Prop := ∀ key, p.lookup key = q.lookup key

def ofPairs (pairs : List (Bytes × Bytes)) : Params :=
  pairs.foldl (fun params p => params.set p.1 p.2) []

theorem lookup_cons (key value k : Bytes) (rest : Params) :
    List.lookup k ((key, value) :: rest) = if k = key then some value else rest.lookup k := by
  by_cases h : k = key
  · subst h
    simp
  · rw [List.lookup_cons, beq_false_of_ne h, if_neg h]

theorem keys_set (params : Params) (key value : Bytes) :
    (params.set key value).map Prod.fst =
      if key ∈ params.map Prod.fst then params.map Prod.fst else params.map Prod.fst ++ [key] := by
  induction params with
  | nil => rfl
  | cons p rest ih =>
    unfold Params.set
    split
    next hkey => simp [hkey]
    next hkey =>
      rw [List.map_cons, ih]
      simp only [List.map_cons, List.mem_cons, Ne.symm hkey, false_or]
      split <;> rfl

theorem nodup_set {params : Params} (h : (params.map Prod.fst).Nodup) (key value : Bytes) :
    ((params.set key value).map Prod.fst).Nodup := by
  rw [keys_set]
  split
  next => exact h
  next hkey => exact List.nodup_append_comm.mp (by simp [h, hkey])

theorem map_set {f : Bytes → Bytes} (hf : Function.Injective f) (g : Bytes → Bytes)
    (params : Params) (key value : Bytes) :
    (params.set key value).map (Prod.map f g) =
      Params.set (f key) (g value) (params.map (Prod.map f g)) := by
  induction params with
  | nil => rfl
  | cons p rest ih =>
    simp only [Params.set, List.map_cons, Prod.map_fst, hf.eq_iff]
    split
    next => rfl
    next => rw [List.map_cons, ih]

theorem set_of_new {params : Params} (h : key ∉ params.map Prod.fst) :
    params.set key value = params ++ [(key, value)] := by
  induction params with
  | nil => rfl
  | cons p rest ih =>
    rw [List.map_cons, List.mem_cons, not_or] at h
    unfold Params.set
    rw [if_neg (Ne.symm h.1), ih h.2]
    rfl

-- ---------------------------------------------------------------------------
-- Inserting many
-- ---------------------------------------------------------------------------

theorem ofPairs_snoc (pairs : List (Bytes × Bytes)) (p : Bytes × Bytes) :
    ofPairs (pairs ++ [p]) = (ofPairs pairs).set p.1 p.2 := by
  simp [ofPairs]

theorem nodup_ofPairs (pairs : List (Bytes × Bytes)) : ((ofPairs pairs).map Prod.fst).Nodup := by
  induction pairs using List.reverseRecOn with
  | nil => exact List.nodup_nil
  | append_singleton pairs p ih =>
    rw [ofPairs_snoc]
    exact nodup_set ih ..

theorem ofPairs_of_nodup {pairs : List (Bytes × Bytes)} (h : (pairs.map Prod.fst).Nodup) :
    ofPairs pairs = pairs := by
  induction pairs using List.reverseRecOn with
  | nil => rfl
  | append_singleton pairs p ih =>
    rw [List.map_append, List.nodup_append] at h
    rw [ofPairs_snoc, ih h.1]
    exact set_of_new fun hmem => h.2.2 _ hmem _ (by simp) rfl

theorem map_ofPairs {f : Bytes → Bytes} (hf : Function.Injective f) (g : Bytes → Bytes)
    (pairs : List (Bytes × Bytes)) :
    (ofPairs pairs).map (Prod.map f g) = ofPairs (pairs.map (Prod.map f g)) := by
  induction pairs using List.reverseRecOn with
  | nil => rfl
  | append_singleton pairs p ih =>
    rw [ofPairs_snoc, map_set hf, ih, List.map_append, List.map_singleton, ofPairs_snoc]
    rfl

-- ---------------------------------------------------------------------------
-- Sameness
-- ---------------------------------------------------------------------------

theorem mem_iff_lookup {params : Params} (h : (params.map Prod.fst).Nodup) :
    (key, value) ∈ params ↔ params.lookup key = some value := by
  induction params with
  | nil => simp
  | cons p rest ih =>
    rw [List.map_cons, List.nodup_cons] at h
    rw [lookup_cons, List.mem_cons, ih h.2, Prod.ext_iff]
    split
    next hkey =>
      subst hkey
      have hnone : rest.lookup p.1 ≠ some value := fun hv =>
        h.1 (List.mem_map.mpr ⟨(p.1, value), (ih h.2).mpr hv, rfl⟩)
      simp [hnone, eq_comm]
    next hkey => simp [hkey]

theorem same_iff_perm {p q : Params} (hp : (p.map Prod.fst).Nodup) (hq : (q.map Prod.fst).Nodup) :
    p.Same q ↔ List.Perm p q := by
  rw [List.perm_ext_iff_of_nodup (hp.of_map _) (hq.of_map _)]
  constructor
  · rintro h ⟨key, value⟩
    rw [mem_iff_lookup hp, mem_iff_lookup hq, h key]
  · intro h key
    refine Option.ext fun value => ?_
    rw [← mem_iff_lookup hp, ← mem_iff_lookup hq, h]

end Params

-- ---------------------------------------------------------------------------
-- The code of a byte
-- ---------------------------------------------------------------------------

/-- The bytes that `UrlEncode` leaves unchanged. -/
def unreserved (b : UInt8) : Bool := isAlnum b || b == 45 || b == 95 || b == 46 || b == 126

theorem forall_byte {p : UInt8 → Prop} (h : ∀ n : Fin 256, p (.ofNat n)) (b : UInt8) : p b := by
  have := h ⟨b.toNat, b.toNat_lt⟩
  rwa [UInt8.ofNat_toNat] at this

theorem urlEncodeByte_kept (h : unreserved b = true) : urlEncodeByte b = [b] := if_pos h

theorem urlEncodeByte_cases (b : UInt8) :
    (unreserved b = true ∧ urlEncodeByte b = [b]) ∨ (b = 32 ∧ urlEncodeByte b = [43]) ∨
      (unreserved b = false ∧ urlEncodeByte b = [37, toHex (b >>> 4), toHex (b &&& 15)]) := by
  cases h : unreserved b with
  | true => exact .inl ⟨rfl, urlEncodeByte_kept h⟩
  | false =>
    by_cases hspace : b = 32
    · subst hspace
      exact .inr (.inl ⟨rfl, rfl⟩)
    · have hkept : ¬ (isAlnum b || b == 45 || b == 95 || b == 46 || b == 126) = true :=
        Bool.eq_false_iff.mp h
      refine .inr (.inr ⟨rfl, ?_⟩)
      rw [urlEncodeByte, if_neg hkept, if_neg (by simpa using hspace)]

theorem unreserved_ne (h : unreserved b = true) : b ≠ 37 ∧ b ≠ 43 := by
  refine ⟨?_, ?_⟩ <;>
    (rintro rfl
     revert h
     decide)

def ofHex (x : UInt8) : UInt8 := if x > 57 then x - 55 else x - 48

theorem ofHex_toHex : ∀ b : UInt8, ofHex (toHex (b >>> 4)) * 16 + ofHex (toHex (b &&& 15)) = b :=
  forall_byte (by decide +kernel)

theorem toHex_unreserved : ∀ b : UInt8,
    unreserved (toHex (b >>> 4)) = true ∧ unreserved (toHex (b &&& 15)) = true :=
  forall_byte (by decide +kernel)

theorem escape_inj {a b : UInt8} (hhigh : toHex (a >>> 4) = toHex (b >>> 4))
    (hlow : toHex (a &&& 15) = toHex (b &&& 15)) : a = b := by
  rw [← ofHex_toHex a, hhigh, hlow, ofHex_toHex]

/-- The first code word of an encoded text is determined by the text. -/
theorem urlEncodeByte_cancel (h : urlEncodeByte a ++ x = urlEncodeByte b ++ y) :
    a = b ∧ x = y := by
  obtain ⟨hkept, ha⟩ | ⟨hspace, ha⟩ | ⟨-, ha⟩ := urlEncodeByte_cases a <;>
    obtain ⟨hkept', hb⟩ | ⟨hspace', hb⟩ | ⟨-, hb⟩ := urlEncodeByte_cases b <;>
      rw [ha, hb] at h <;> simp only [List.cons_append, List.nil_append, List.cons.injEq] at h
  · exact h
  · exact absurd h.1 (unreserved_ne hkept).2
  · exact absurd h.1 (unreserved_ne hkept).1
  · exact absurd h.1.symm (unreserved_ne hkept').2
  · exact ⟨hspace.trans hspace'.symm, h.2⟩
  · exact absurd h.1 (by decide)
  · exact absurd h.1.symm (unreserved_ne hkept').1
  · exact absurd h.1 (by decide)
  · exact ⟨escape_inj h.2.1 h.2.2.1, h.2.2.2⟩

theorem urlEncode_cons (b : UInt8) (str : Bytes) :
    urlEncode (b :: str) = urlEncodeByte b ++ urlEncode str := rfl

theorem urlEncodeByte_ne_nil (b : UInt8) : urlEncodeByte b ≠ [] := by
  unfold urlEncodeByte
  split
  next => simp
  next => split <;> simp

theorem urlEncode_inj {s t : Bytes} (h : urlEncode s = urlEncode t) : s = t := by
  induction s generalizing t with
  | nil =>
    cases t with
    | nil => rfl
    | cons b t => simp [urlEncode, urlEncodeByte_ne_nil] at h
  | cons a s ih =>
    cases t with
    | nil => simp [urlEncode, urlEncodeByte_ne_nil] at h
    | cons b t =>
      obtain ⟨rfl, hrest⟩ := urlEncodeByte_cancel (urlEncode_cons a s ▸ urlEncode_cons b t ▸ h)
      rw [ih hrest]

theorem mem_urlEncode {str : Bytes} (h : b ∈ urlEncode str) :
    unreserved b = true ∨ b = 43 ∨ b = 37 := by
  obtain ⟨a, -, hb⟩ := List.mem_flatMap.mp h
  obtain ⟨hkept, ha⟩ | ⟨-, ha⟩ | ⟨-, ha⟩ := urlEncodeByte_cases a <;>
    simp only [ha, List.mem_cons, List.not_mem_nil, or_false] at hb
  · exact .inl (hb ▸ hkept)
  · exact .inr (.inl hb)
  · obtain rfl | rfl | rfl := hb
    · exact .inr (.inr rfl)
    · exact .inl (toHex_unreserved a).1
    · exact .inl (toHex_unreserved a).2

theorem not_mem_urlEncode {sep : UInt8} (h : unreserved sep = false) (hplus : sep ≠ 43)
    (hpercent : sep ≠ 37) (str : Bytes) : sep ∉ urlEncode str := by
  intro hmem
  obtain hkept | rfl | rfl := mem_urlEncode hmem
  · exact absurd hkept (by simp [h])
  · exact hplus rfl
  · exact hpercent rfl

-- ---------------------------------------------------------------------------
-- The scanning loop
-- ---------------------------------------------------------------------------

/-- The fields of a connection that `pre_parse_get_params` sets. -/
structure GetFields where
  getUrl : Bytes := []
  getParams : Params := []
  deriving DecidableEq, Repr

/-- The body of the loop, which the source repeats once after it. -/
def setPair (getParams : Params) (pair : Bytes) : Params :=
  match pair.idxOf? 61 with
  | some eqPos =>
    getParams.set (urlEncode (pair.take eqPos)) (urlEncode (pair.drop (eqPos + 1)))
  | none => getParams

/-- `pre_parse_get_params`, with `fuel` as a bound on the rounds of its loop. -/
def scan (fuel : Nat) (self : GetFields) (uri : Bytes) : Option GetFields :=
  match uri.idxOf? 63 with
  | none => some { self with getUrl := uri }
  | some queryPos => do
    let self := { self with getUrl := uri.take queryPos }
    let (queryString, getParams) ←
      Pieces.eat 38 setPair fuel (uri.drop (queryPos + 1)) self.getParams
    return { self with
      getParams := if queryString.isEmpty then getParams else setPair getParams queryString }

-- ---------------------------------------------------------------------------
-- The grammar
-- ---------------------------------------------------------------------------

def urlOf (uri : Bytes) : Bytes := uri.takeWhile (· != 63)

def queryOf (uri : Bytes) : Bytes := (uri.dropWhile (· != 63)).tail

/-- A piece is split at its first `=`. -/
def keyValue (piece : Bytes) : Option (Bytes × Bytes) :=
  if 61 ∈ piece then some (piece.takeWhile (· != 61), (piece.dropWhile (· != 61)).tail) else none

def rawPairs (uri : Bytes) : List (Bytes × Bytes) :=
  ((queryOf uri).splitOn 38).filterMap keyValue

/-- The pairs that a target denotes: of two pairs with the same raw key the later one counts.
-/
def grammar (uri : Bytes) : GetFields where
  getUrl := urlOf uri
  getParams := (Params.ofPairs (rawPairs uri)).map (Prod.map urlEncode urlEncode)

theorem keyValue_eq (piece : Bytes) : keyValue piece =
    (piece.idxOf? 61).map fun pos => (piece.take pos, piece.drop (pos + 1)) := by
  unfold keyValue
  cases hpos : piece.idxOf? 61 with
  | none => rw [if_neg (Pieces.idxOf?_none hpos), Option.map_none]
  | some pos =>
    obtain ⟨hnot, heq⟩ := Pieces.idxOf?_split hpos
    obtain ⟨htake, hdrop⟩ := Pieces.span_cons (y := piece.drop (pos + 1)) hnot
    rw [← heq] at htake hdrop
    rw [if_pos (heq ▸ List.mem_append_right _ List.mem_cons_self), htake, hdrop]
    rfl

theorem setPair_eq (getParams : Params) (pair : Bytes) : setPair getParams pair =
    match keyValue pair with
    | some (key, value) => getParams.set (urlEncode key) (urlEncode value)
    | none => getParams := by
  rw [keyValue_eq, setPair]
  cases pair.idxOf? 61 <;> rfl

theorem foldl_setPair (pieces : List Bytes) (params : Params) :
    pieces.foldl setPair (params.map (Prod.map urlEncode urlEncode)) =
      ((pieces.filterMap keyValue).foldl (fun params p => params.set p.1 p.2) params).map
        (Prod.map urlEncode urlEncode) := by
  induction pieces generalizing params with
  | nil => rfl
  | cons piece pieces ih =>
    rw [List.foldl_cons, setPair_eq, List.filterMap_cons]
    cases keyValue piece with
    | none => exact ih params
    | some p =>
      have hset := Params.map_set (fun _ _ => urlEncode_inj) urlEncode params p.1 p.2
      simp only [← hset, ih, List.foldl_cons]

/-- The copy of the body after the loop treats the last piece as the body does. -/
theorem setPair_last (getParams : Params) (rest : Bytes) :
    (if rest.isEmpty then getParams else setPair getParams rest) = setPair getParams rest := by
  cases rest <;> rfl

theorem grammar_plain {uri : Bytes} (h : 63 ∉ uri) : grammar uri = { getUrl := uri } := by
  obtain ⟨htake, hdrop⟩ := Pieces.span_all h
  simp [grammar, urlOf, rawPairs, queryOf, htake, hdrop, keyValue, Params.ofPairs]

theorem grammar_query {path : Bytes} (h : 63 ∉ path) (query : Bytes) :
    grammar (path ++ 63 :: query) =
      { getUrl := path, getParams := (query.splitOn 38).foldl setPair [] } := by
  obtain ⟨htake, hdrop⟩ := Pieces.span_cons (y := query) h
  have hparams := foldl_setPair (query.splitOn 38) []
  rw [List.map_nil] at hparams
  rw [hparams]
  simp [grammar, urlOf, rawPairs, queryOf, htake, hdrop, Params.ofPairs]

theorem scan_grammar {fuel : Nat} (uri : Bytes) (h : uri.count 38 < fuel) :
    scan fuel {} uri = some (grammar uri) := by
  unfold scan
  cases hpos : uri.idxOf? 63 with
  | none => rw [grammar_plain (Pieces.idxOf?_none hpos)]
  | some pos =>
    obtain ⟨hnot, heq⟩ := Pieces.idxOf?_split hpos
    have hcount : (uri.drop (pos + 1)).count 38 < fuel :=
      Nat.lt_of_le_of_lt ((uri.drop_sublist (pos + 1)).count_le 38) h
    obtain ⟨rest, getParams, hrun, hfold⟩ : ∃ rest getParams,
        Pieces.eat 38 setPair fuel (uri.drop (pos + 1)) [] = some (rest, getParams) ∧
          setPair getParams rest = ((uri.drop (pos + 1)).splitOn 38).foldl setPair [] :=
      Pieces.eat_pieces hcount
    have hgrammar := grammar_query hnot (uri.drop (pos + 1))
    rw [← heq, ← hfold] at hgrammar
    rw [hgrammar, ← setPair_last]
    dsimp only
    rw [hrun]
    rfl

-- The model of the handlers reads the same thing off in one pass.

theorem cut_eq (sep : UInt8) (bytes : Bytes) : cut sep bytes =
    (bytes.idxOf? sep).map fun pos => (bytes.take pos, bytes.drop (pos + 1)) := by
  induction bytes with
  | nil => rfl
  | cons b rest ih =>
    rw [cut, List.idxOf?_cons, ih]
    by_cases hb : b = sep
    · simp [hb]
    · cases rest.idxOf? sep <;> simp [hb]

theorem addPair_eq (params : Params) (pair : Bytes) :
    addPair params pair = setPair params pair := by
  rw [addPair, cut_eq, setPair]
  cases pair.idxOf? 61 <;> rfl

theorem parseQuery_eq {pair : Bytes} (h : 38 ∉ pair) (params : Params) (bytes : Bytes) :
    parseQuery params pair bytes = ((pair ++ bytes).splitOn 38).foldl setPair params := by
  induction bytes generalizing params pair with
  | nil =>
    rw [parseQuery, List.append_nil, List.splitOn_eq_singleton h, addPair_eq]
    cases pair <;> rfl
  | cons b rest ih =>
    unfold parseQuery
    split
    next hb =>
      rw [hb, List.splitOn_append_cons_self_of_not_mem h, ih List.not_mem_nil, addPair_eq]
      rfl
    next hb =>
      rw [ih (by simp [h, Ne.symm hb]), List.append_assoc]
      rfl

theorem preParseGetParams_grammar (uri : Bytes) :
    preParseGetParams uri = ((grammar uri).getUrl, (grammar uri).getParams) := by
  rw [preParseGetParams, cut_eq]
  cases hpos : uri.idxOf? 63 with
  | none => rw [grammar_plain (Pieces.idxOf?_none hpos), Option.map_none]
  | some pos =>
    obtain ⟨hnot, heq⟩ := Pieces.idxOf?_split hpos
    have hgrammar := grammar_query hnot (uri.drop (pos + 1))
    rw [← heq] at hgrammar
    rw [hgrammar, Option.map_some]
    exact congrArg (Prod.mk _) (parseQuery_eq List.not_mem_nil [] (uri.drop (pos + 1)))

theorem nodup_grammar (uri : Bytes) : ((grammar uri).getParams.map Prod.fst).Nodup := by
  rw [grammar, Params.map_ofPairs fun _ _ => urlEncode_inj]
  exact Params.nodup_ofPairs _

theorem grammar_reorder {uri uri' : Bytes}
    (hperm : ((queryOf uri').splitOn 38).Perm ((queryOf uri).splitOn 38))
    (hkeys : ((rawPairs uri).map Prod.fst).Nodup) :
    (grammar uri').getParams.Same (grammar uri).getParams := by
  have hpairs : (rawPairs uri').Perm (rawPairs uri) := hperm.filterMap keyValue
  have hkeys' : ((rawPairs uri').map Prod.fst).Nodup := (hpairs.map Prod.fst).nodup_iff.mpr hkeys
  rw [Params.same_iff_perm (nodup_grammar uri') (nodup_grammar uri)]
  simp only [grammar, Params.ofPairs_of_nodup hkeys, Params.ofPairs_of_nodup hkeys']
  exact hpairs.map _

/-- The loop terminates and `pre_parse_get_params` computes `grammar`; pieces with different
keys can be reordered. -/
theorem preParse_is_grammar (uri : Bytes) :
    (∃ rounds, ∀ fuel > rounds, scan fuel {} uri = some (grammar uri)) ∧
    preParseGetParams uri = ((grammar uri).getUrl, (grammar uri).getParams) ∧
    ∀ uri', ((queryOf uri').splitOn 38).Perm ((queryOf uri).splitOn 38) →
      ((rawPairs uri).map Prod.fst).Nodup →
      (preParseGetParams uri').2.Same (preParseGetParams uri).2 := by
  refine ⟨⟨uri.count 38, fun fuel h => scan_grammar uri h⟩, preParseGetParams_grammar uri, ?_⟩
  intro uri' hperm hkeys
  rw [preParseGetParams_grammar, preParseGetParams_grammar]
  exact grammar_reorder hperm hkeys

theorem preParse_is_grammar_swapped :
    (preParseGetParams [47, 63, 98, 61, 50, 38, 97, 61, 49]).2.Same
      (preParseGetParams [47, 63, 97, 61, 49, 38, 98, 61, 50]).2 :=
  (preParse_is_grammar [47, 63, 97, 61, 49, 38, 98, 61, 50]).2.2
    [47, 63, 98, 61, 50, 38, 97, 61, 49] (by decide) (by decide)

end GateServer.HttpConnection
