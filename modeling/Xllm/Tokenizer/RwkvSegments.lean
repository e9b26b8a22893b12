import Xllm.Lib.LongestMatch
import Xllm.Tokenizer.RwkvLiterals

/-!
# The segmentation of a text by the RWKV vocabulary

The trie of a vocabulary holds the last id of each token (`Built`), a walk down the trie finds the
longest token at a place (`matchFrom_spec`), and the loop of `encode_bytes` is the greedy segmentation
(`encodeLoop_spec`). The ids stand for the segments as long as no later line of the vocabulary gives
the id of a segment to other bytes (`Kept`).
-/

namespace Xllm.Tokenizer.RwkvTokenizer

open Xllm.Lib Xllm.Lib.Utf8 List
open String (utf8EncodeChar)

/-! ## The vocabulary -/

/-- The bytes are a token of the vocabulary. -/
def IsToken (entries : List (Int × Bytes)) (token : Bytes) : Prop := ∃ id, (id, token) ∈ entries

def lastOfToken (entries : List (Int × Bytes)) (token : Bytes) : Option (Int × Bytes) :=
  entries.reverse.find? fun entry => entry.2 == token

def lastOfId (entries : List (Int × Bytes)) (id : Int) : Option (Int × Bytes) :=
  entries.reverse.find? fun entry => entry.1 == id

/-- The last line of a token is the last line of its id too: the id is not given to other bytes. -/
def Kept (entries : List (Int × Bytes)) (token : Bytes) : Prop :=
  ∀ entry, lastOfToken entries token = some entry → lastOfId entries entry.1 = some entry

/-- What a vocabulary is after its lines. -/
structure Built (entries : List (Int × Bytes)) (data : VocabData) : Prop where
  idxToToken : ∀ id, data.idxToToken.lookup id = (lastOfId entries id).map Prod.snd
  tokenToIdx : ∀ token, data.tokenToIdx.lookup token = (lastOfToken entries token).map Prod.fst
  root : ∀ token, data.root.find token = (lastOfToken entries token).map Prod.fst

theorem lastOfToken_append (entries : List (Int × Bytes)) (entry : Int × Bytes) (token : Bytes) :
    lastOfToken (entries ++ [entry]) token =
      if token = entry.2 then some entry else lastOfToken entries token := by
  unfold lastOfToken
  rw [reverse_append, reverse_singleton, singleton_append, List.find?_cons]
  by_cases h : token = entry.2
  · rw [if_pos h, h, beq_self_eq_true]
  · rw [if_neg h, beq_false_of_ne (Ne.symm h)]

theorem lastOfId_append (entries : List (Int × Bytes)) (entry : Int × Bytes) (id : Int) :
    lastOfId (entries ++ [entry]) id = if id = entry.1 then some entry else lastOfId entries id := by
  unfold lastOfId
  rw [reverse_append, reverse_singleton, singleton_append, List.find?_cons]
  by_cases h : id = entry.1
  · rw [if_pos h, h, beq_self_eq_true]
  · rw [if_neg h, beq_false_of_ne (Ne.symm h)]

theorem Built.add {entries : List (Int × Bytes)} {data : VocabData} (h : Built entries data)
    (entry : Int × Bytes) : Built (entries ++ [entry]) (data.add entry) where
  idxToToken id := by
    rw [VocabData.add, lastOfId_append, lookup_cons, h.idxToToken]
    by_cases hid : id = entry.1
    · rw [if_pos hid, hid, beq_self_eq_true]
      rfl
    · rw [if_neg hid, beq_false_of_ne hid]
  tokenToIdx token := by
    rw [VocabData.add, lastOfToken_append, lookup_cons, h.tokenToIdx]
    by_cases htoken : token = entry.2
    · rw [if_pos htoken, htoken, beq_self_eq_true]
      rfl
    · rw [if_neg htoken, beq_false_of_ne htoken]
  root token := by
    rw [VocabData.add, Trie.find_insert, lastOfToken_append, h.root]
    by_cases htoken : token = entry.2
    · rw [if_pos htoken, if_pos htoken]
      rfl
    · rw [if_neg htoken, if_neg htoken]

theorem built_foldl (entries before : List (Int × Bytes)) {data : VocabData}
    (h : Built before data) : Built (before ++ entries) (entries.foldl VocabData.add data) := by
  induction entries generalizing before data with
  | nil => rw [append_nil]; exact h
  | cons entry entries ih =>
    have hnext := ih (before ++ [entry]) (h.add entry)
    rw [List.append_assoc] at hnext
    exact hnext

theorem built_empty : Built [] {} where
  idxToToken _ := rfl
  tokenToIdx _ := rfl
  root := Trie.find_empty

theorem built_of_build {file : Bytes} {data : VocabData}
    (h : buildVocabData (some file) = .ok data) : Built (vocabEntries file) data := by
  unfold buildVocabData at h
  dsimp only at h
  split at h
  · cases h
  · rw [← Except.ok.inj h]
    exact built_foldl (vocabEntries file) [] built_empty

variable {entries : List (Int × Bytes)} {data : VocabData}

theorem eq_of_lastOfToken {token : Bytes} {entry : Int × Bytes}
    (h : lastOfToken entries token = some entry) : entry.2 = token := by
  have hfound := List.find?_some h
  exact eq_of_beq hfound

theorem eq_of_lastOfId {id : Int} {entry : Int × Bytes} (h : lastOfId entries id = some entry) :
    entry.1 = id := by
  have hfound := List.find?_some h
  exact eq_of_beq hfound

theorem Built.isToken_iff (h : Built entries data) (token : Bytes) :
    IsToken entries token ↔ data.root.find token ≠ none := by
  rw [h.root, ne_eq, Option.map_eq_none_iff, lastOfToken, List.find?_eq_none]
  constructor
  · intro ⟨id, hmem⟩ hnone
    exact hnone (id, token) (mem_reverse.mpr hmem) (beq_self_eq_true token)
  · intro hsome
    by_contra htoken
    apply hsome
    intro entry hmem heq
    exact htoken ⟨entry.1, eq_of_beq heq ▸ mem_reverse.mp hmem⟩

theorem Built.lookup_iff (h : Built entries data) {token : Bytes} {id : Int}
    (hfind : data.root.find token = some id) :
    data.idxToToken.lookup id = some token ↔ Kept entries token := by
  rw [h.root, Option.map_eq_some_iff] at hfind
  obtain ⟨entry, hentry, hid⟩ := hfind
  rw [h.idxToToken, Option.map_eq_some_iff]
  constructor
  · intro ⟨other, hother, htoken⟩ entry' hentry'
    obtain rfl : entry = entry' := Option.some.inj (hentry.symm.trans hentry')
    have heq : other = entry :=
      Prod.ext ((eq_of_lastOfId hother).trans hid.symm)
        (htoken.trans (eq_of_lastOfToken hentry).symm)
    rw [hid, ← heq]
    exact hother
  · intro hkept
    exact ⟨entry, hid ▸ hkept entry hentry, eq_of_lastOfToken hentry⟩

/-! ## The walk -/

/-- A walk down the trie finds the longest key that the text begins with, or leaves what was found
before. -/
theorem matchFrom_spec (node : RwkvTrieNode) (cursor : Nat) (best : Nat × Option Int) (text : Bytes) :
    (∃ token id, token ≠ [] ∧ token <+: text ∧ node.find token = some id ∧
      (∀ other, node.find other ≠ none → other <+: text → other.length ≤ token.length) ∧
      matchFrom node cursor best text = (cursor + token.length, some id)) ∨
    (∀ token, token ≠ [] → token <+: text → node.find token = none) ∧
      matchFrom node cursor best text = best := by
  induction text generalizing node cursor best with
  | nil =>
    right
    refine ⟨fun token hne hprefix => absurd (prefix_nil.mp hprefix) hne, ?_⟩
    rfl
  | cons byte rest ih =>
    cases hchild : node.child byte with
    | none =>
      right
      constructor
      · intro token hne hprefix
        obtain ⟨first, token, rfl⟩ := exists_cons_of_ne_nil hne
        rw [(cons_prefix_cons.mp hprefix).1, Trie.find_cons, hchild, Option.bind_none]
      · simp only [matchFrom, hchild]
    | some child =>
      have hfind : ∀ token, node.find (byte :: token) = child.find token := by
        intro token
        rw [Trie.find_cons, hchild, Option.bind_some]
      simp only [matchFrom, hchild]
      rcases ih child (cursor + 1) (if child.value.isSome then (cursor + 1, child.value) else best)
        with ⟨token, id, hne, hprefix, htoken, hlongest, hmatch⟩ | ⟨hnone, hmatch⟩
      · left
        refine ⟨byte :: token, id, cons_ne_nil _ _, cons_prefix_cons.mpr ⟨rfl, hprefix⟩,
          (hfind token).trans htoken, ?_, ?_⟩
        · intro other hother hprefix'
          cases other with
          | nil => exact Nat.zero_le _
          | cons first other =>
            obtain ⟨rfl, htail⟩ := cons_prefix_cons.mp hprefix'
            rw [hfind] at hother
            exact Nat.succ_le_succ (hlongest other hother htail)
        · rw [hmatch, length_cons, Nat.add_right_comm, Nat.add_assoc]
      · rw [hmatch]
        -- Nothing is found below the child, so that its own value counts.
        have hbelow : ∀ first other, node.find (first :: other) ≠ none →
            first :: other <+: byte :: rest → other = [] := by
          intro first other hother hprefix
          obtain ⟨rfl, htail⟩ := cons_prefix_cons.mp hprefix
          by_contra hne
          exact hother ((hfind other).trans (hnone other hne htail))
        cases hvalue : child.value with
        | some id =>
          left
          refine ⟨[byte], id, cons_ne_nil _ _, cons_prefix_cons.mpr ⟨rfl, List.nil_prefix⟩,
            ?_, ?_, rfl⟩
          · rw [hfind, Trie.find_nil, hvalue]
          · intro other hother hprefix
            cases other with
            | nil => exact Nat.zero_le _
            | cons first other =>
              rw [hbelow first other hother hprefix]
              exact Nat.le_refl 1
        | none =>
          right
          refine ⟨?_, rfl⟩
          intro token hne hprefix
          by_contra htoken
          obtain ⟨first, token, rfl⟩ := exists_cons_of_ne_nil hne
          obtain rfl := hbelow first token htoken hprefix
          rw [(cons_prefix_cons.mp hprefix).1, hfind, Trie.find_nil, hvalue] at htoken
          exact htoken rfl

/-! ## The segmentation -/

/-- The loop is the greedy segmentation, with the id of each segment in the trie. -/
theorem Built.encodeLoop_spec (h : Built entries data) (text : Bytes) (turns : Nat)
    (hturns : text.length ≤ turns) (ids : List Int) :
    (∃ segments found, Greedy (IsToken entries) segments text ∧
      segments.map data.root.find = found.map some ∧
      encodeLoop data.root turns text ids = .ok (true, ids ++ found)) ∨
    (Stuck (IsToken entries) text ∧ encodeLoop data.root turns text ids = .ok (false, [])) := by
  induction turns generalizing text ids with
  | zero =>
    obtain rfl := length_eq_zero_iff.mp (Nat.le_zero.mp hturns)
    left
    refine ⟨[], [], .done, rfl, ?_⟩
    rw [encodeLoop, append_nil]
  | succ turns ih =>
    cases text with
    | nil =>
      left
      refine ⟨[], [], .done, rfl, ?_⟩
      rw [encodeLoop, append_nil]
    | cons byte rest =>
      rcases matchFrom_spec data.root 0 (0, none) (byte :: rest) with
        ⟨token, id, hne, hprefix, htoken, hlongest, hmatch⟩ | ⟨hnone, hmatch⟩
      · obtain ⟨tail, htail⟩ := hprefix
        have hfirst : Longest (IsToken entries) token (token ++ tail) :=
          { isToken := (h.isToken_iff token).mpr (by rw [htoken]; exact Option.some_ne_none id)
            ne_nil := hne
            isPrefix := prefix_append token tail
            longest := fun other hother hprefix =>
              hlongest other ((h.isToken_iff other).mp hother) (htail ▸ hprefix) }
        have hpos := length_pos_iff.mpr hne
        have hlength : token.length + tail.length = (byte :: rest).length := by
          rw [← htail, length_append]
        have hstep : encodeLoop data.root (turns + 1) (byte :: rest) ids =
            encodeLoop data.root turns tail (ids ++ [id]) := by
          simp only [encodeLoop, hmatch, Nat.zero_add]
          rw [← htail, drop_left]
        rcases ih tail (by omega) (ids ++ [id]) with
          ⟨segments, found, hgreedy, hfound, hloop⟩ | ⟨hstuck, hloop⟩
        · left
          refine ⟨token :: segments, id :: found, ?_, ?_, ?_⟩
          · rw [← htail]
            exact .step hfirst hgreedy
          · rw [map_cons, map_cons, htoken, hfound]
          · rw [hstep, hloop, List.append_assoc, singleton_append]
        · right
          refine ⟨?_, hstep.trans hloop⟩
          rw [← htail]
          exact .step hfirst hstuck
      · right
        refine ⟨.here (cons_ne_nil _ _) ?_, ?_⟩
        · intro token htoken hne hprefix
          exact (h.isToken_iff token).mp htoken (hnone token hne hprefix)
        · simp only [encodeLoop, hmatch]

theorem Built.lookup_segments_iff (h : Built entries data) {segments : List Bytes} {ids : List Int}
    (hids : segments.map data.root.find = ids.map some) :
    ids.map (fun id => data.idxToToken.lookup id) = segments.map some ↔
      ∀ segment ∈ segments, Kept entries segment := by
  induction segments generalizing ids with
  | nil =>
    rw [map_eq_nil_iff.mp hids.symm]
    exact ⟨fun _ segment hmem => (nomatch hmem), fun _ => rfl⟩
  | cons segment segments ih =>
    cases ids with
    | nil => exact nomatch hids
    | cons id ids =>
      rw [map_cons, map_cons, List.cons.injEq] at hids
      rw [map_cons, map_cons, List.cons.injEq, ih hids.2, h.lookup_iff hids.1,
        forall_mem_cons]

/-! ## The round trip -/

variable {tokenizer : RwkvTokenizer}

theorem argId_mem_skippedIds {token : Bytes} {id : Int} (h : tokenizer.argId token = some id)
    (htoken : token ∈ [tokenizer.bosToken, tokenizer.eosToken, tokenizer.padToken]) :
    id ∈ tokenizer.skippedIds true := by
  exact mem_filterMap.mpr ⟨token, htoken, h⟩

theorem bytesOf_segments {before ids after : List Int} {segments : List Bytes}
    {skipSpecialTokens : Bool}
    (hids : ids.map (fun id => tokenizer.vocab.idxToToken.lookup id) = segments.map some)
    (hkept : ∀ id ∈ ids, id ∉ tokenizer.skippedIds skipSpecialTokens)
    (hbefore : ∀ id ∈ before, id ∈ tokenizer.skippedIds skipSpecialTokens)
    (hafter : ∀ id ∈ after, id ∈ tokenizer.skippedIds skipSpecialTokens) :
    tokenizer.bytesOf (before ++ ids ++ after) skipSpecialTokens = segments.flatten := by
  have hskip : ∀ special : List Int,
      (∀ id ∈ special, id ∈ tokenizer.skippedIds skipSpecialTokens) →
      special.filter (fun id => !(tokenizer.skippedIds skipSpecialTokens).contains id) = [] := by
    intro special hspecial
    rw [filter_eq_nil_iff]
    intro id hid
    simp [hspecial id hid]
  have hall : ids.filter (fun id => !(tokenizer.skippedIds skipSpecialTokens).contains id) = ids := by
    rw [filter_eq_self]
    intro id hid
    simp [hkept id hid]
  unfold bytesOf
  rw [filter_append, filter_append, hskip before hbefore, hskip after hafter, hall,
    nil_append, append_nil]
  clear hkept hall
  induction ids generalizing segments with
  | nil =>
    rw [map_eq_nil_iff.mp hids.symm]
    rfl
  | cons id ids ih =>
    cases segments with
    | nil => exact nomatch hids
    | cons segment segments =>
      rw [map_cons, map_cons, List.cons.injEq] at hids
      rw [flatMap_cons, flatten_cons, ih hids.2, hids.1, Option.getD_some]

theorem optionId_skipped {adds : Bool} {token : Bytes}
    (htoken : token ∈ [tokenizer.bosToken, tokenizer.eosToken, tokenizer.padToken])
    {addSpecialTokens skipSpecialTokens : Bool}
    (hadd : addSpecialTokens = true → skipSpecialTokens = true) :
    ∀ id ∈ (if addSpecialTokens && adds then tokenizer.argId token else none).toList,
      id ∈ tokenizer.skippedIds skipSpecialTokens := by
  intro id hid
  rw [Option.mem_toList] at hid
  split at hid
  · rename_i h
    rw [hadd (Bool.and_eq_true_iff.mp h).1]
    exact argId_mem_skippedIds hid htoken
  · cases hid

/-- What is asked of the segmentation of a text: the walk ends, it fails exactly when it gets stuck and
then without ids, else the ids stand for the longest tokens, and they are decoded as the text. The
special tokens that are added to a text are skipped again, and no other id is skipped. -/
structure Segmented (tokenizer : RwkvTokenizer) (entries : List (Int × Bytes)) (text : Bytes) :
    Prop where
  ends : ∃ result, encodeBytes tokenizer.vocab text = .ok result
  fails_iff : (∃ ids, encodeBytes tokenizer.vocab text = .ok (false, ids)) ↔
    Stuck (IsToken entries) text
  failed : ∀ ids, encodeBytes tokenizer.vocab text = .ok (false, ids) → ids = []
  segments : ∀ ids, encodeBytes tokenizer.vocab text = .ok (true, ids) →
    ∃ segments, ids.map (fun id => tokenizer.vocab.idxToToken.lookup id) = segments.map some ∧
      segments.flatten = text ∧ Greedy (IsToken entries) segments text
  roundTrip : ∀ characters, text = encodeText characters →
    ∀ ids, encodeBytes tokenizer.vocab text = .ok (true, ids) →
    ∀ addSpecialTokens skipSpecialTokens, (addSpecialTokens = true → skipSpecialTokens = true) →
    (∀ id ∈ ids, id ∉ tokenizer.skippedIds skipSpecialTokens) →
    ∃ encoded, tokenizer.encode text addSpecialTokens = .ok (true, encoded) ∧
      tokenizer.decode encoded skipSpecialTokens = text

/-- A text is segmented as it should be exactly when its segments are kept. -/
theorem Built.segmented_iff (h : Built entries tokenizer.vocab) (text : Bytes) :
    Segmented tokenizer entries text ↔
      ∀ segments, Greedy (IsToken entries) segments text →
        ∀ segment ∈ segments, Kept entries segment := by
  rcases h.encodeLoop_spec text text.length (Nat.le_refl _) [] with
    ⟨segments, ids, hgreedy, hids, hloop⟩ | ⟨hstuck, hloop⟩
  · have hencode : encodeBytes tokenizer.vocab text = .ok (true, ids) := hloop
    constructor
    · intro hsegmented others hothers
      obtain ⟨segments', hids', _, hgreedy'⟩ := hsegmented.segments ids hencode
      rw [hothers.unique hgreedy]
      rw [hgreedy'.unique hgreedy] at hids'
      exact (h.lookup_segments_iff hids).mp hids'
    · intro hkept
      have hlookup := (h.lookup_segments_iff hids).mpr (hkept segments hgreedy)
      have hfail : ∀ ids', encodeBytes tokenizer.vocab text ≠ .ok (false, ids') := by
        intro ids' hfail
        rw [hencode] at hfail
        cases hfail
      exact {
        ends := ⟨_, hencode⟩
        fails_iff := ⟨fun ⟨ids', h⟩ => absurd h (hfail ids'), fun h => absurd h hgreedy.not_stuck⟩
        failed := fun ids' h => absurd h (hfail ids')
        segments := fun ids' hids' => by
          rw [hencode] at hids'
          cases hids'
          exact ⟨segments, hlookup, hgreedy.flatten, hgreedy⟩
        roundTrip := fun characters htext ids' hids' add skip hadd hskipped => by
          rw [hencode] at hids'
          cases hids'
          refine ⟨_, by rw [encode, hencode]; rfl, ?_⟩
          have hbytes := bytesOf_segments hlookup hskipped
            (@optionId_skipped tokenizer tokenizer.addBosToken tokenizer.bosToken (by simp) add skip
              hadd)
            (@optionId_skipped tokenizer tokenizer.addEosToken tokenizer.eosToken (by simp) add skip
              hadd)
          rw [decode, hbytes, hgreedy.flatten, htext]
          exact decodeLoop_encodeText characters _ (Nat.le_refl _) }
  · have hencode : encodeBytes tokenizer.vocab text = .ok (false, []) := hloop
    constructor
    · intro _ segments hgreedy
      exact absurd hstuck hgreedy.not_stuck
    · intro _
      exact {
        ends := ⟨_, hencode⟩
        fails_iff := ⟨fun _ => hstuck, fun _ => ⟨[], hencode⟩⟩
        failed := fun ids' hfail => by rw [hencode] at hfail; cases hfail; rfl
        segments := fun ids' hids' => by rw [hencode] at hids'; cases hids'
        roundTrip := fun _ _ ids' hids' => by rw [hencode] at hids'; cases hids' }

/-- The segmentation is right for the texts whose segments are kept, and the literals are read as Python
reads them if they are `'…'` or `b'…'` and no `bytes` literal has `\u` or `\U`. -/
theorem segmented_and_parsed_iff (tokenizer : RwkvTokenizer) (file : Bytes)
    (literal : PythonLiteral) :
    (buildVocabData (some file) = .ok tokenizer.vocab → ∀ text,
      (Segmented tokenizer (vocabEntries file) text ↔
        ∀ segments, Greedy (IsToken (vocabEntries file)) segments text →
          ∀ segment ∈ segments, Kept (vocabEntries file) segment)) ∧
    (literal.WellFormed →
      (parsePythonLiteral literal.render = some literal.value ↔ literal.Handled)) :=
  ⟨fun hbuild text => (built_of_build hbuild).segmented_iff text, fun h => parse_iff h⟩

/-- The file `1 'a' 1`, `2 'ab' 2`. -/
def abFile : Bytes := [49, 32, 39, 97, 39, 32, 49, 10, 50, 32, 39, 97, 98, 39, 32, 50]

/-- The file `1 'a' 1`, `1 'b' 1`. -/
def reusedFile : Bytes := [49, 32, 39, 97, 39, 32, 49, 10, 49, 32, 39, 98, 39, 32, 49]

def vocabOf (file : Bytes) : VocabData := (vocabEntries file).foldl VocabData.add {}

/-- The literal `b'\u0041'`. -/
def codePointInBytes : PythonLiteral where
  mark := .b
  quote := .single
  isTriple := false
  items := [.hex .u ⟨[⟨0, false⟩, ⟨0, false⟩, ⟨4, false⟩, ⟨1, false⟩], rfl⟩]

theorem codePointInBytes_wellFormed : codePointInBytes.WellFormed where
  itemFits item hitem := by
    rw [mem_singleton.mp hitem]
    intro h
    cases h
  inside _ item hitem := by
    rw [mem_singleton.mp hitem]
    trivial
  insideTriple h := by cases h

theorem segmented_ab :
    (Segmented { vocab := vocabOf abFile } (vocabEntries abFile) [97, 97, 98] ↔
      ∀ segments, Greedy (IsToken (vocabEntries abFile)) segments [97, 97, 98] →
        ∀ segment ∈ segments, Kept (vocabEntries abFile) segment) ∧
    (parsePythonLiteral codePointInBytes.render = some codePointInBytes.value ↔
      codePointInBytes.Handled) :=
  have h := segmented_and_parsed_iff { vocab := vocabOf abFile } abFile codePointInBytes
  ⟨h.1 rfl [97, 97, 98], h.2 codePointInBytes_wellFormed⟩

/-- An id that is given to two tokens, and a code point in a `bytes` literal. -/
theorem segmented_and_parsed_fail :
    (buildVocabData (some reusedFile) = .ok (vocabOf reusedFile) ∧
      ¬ Segmented { vocab := vocabOf reusedFile } (vocabEntries reusedFile) [97]) ∧
    codePointInBytes.WellFormed ∧
      parsePythonLiteral codePointInBytes.render ≠ some codePointInBytes.value := by
  refine ⟨⟨rfl, fun h => ?_⟩, codePointInBytes_wellFormed, by decide⟩
  obtain ⟨segments, hids, hflatten, _⟩ := h.segments [1] (by decide +kernel)
  obtain ⟨segment, rfl, hsegment⟩ := map_eq_singleton_iff.mp hids.symm
  rw [flatten_singleton, Option.some.inj hsegment] at hflatten
  exact absurd hflatten (by decide)

end Xllm.Tokenizer.RwkvTokenizer
