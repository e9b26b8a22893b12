import Xllm.Lib.Outcome

/-!
# The tiktoken tokenizer

`TiktokenTokenizer` (`core/framework/tokenizer/tiktoken_tokenizer.cpp`). A piece of text becomes
tokens by byte-pair merges: the working list holds where each part starts and the rank of the two
parts from there, and only the ranks that a merge changes are looked up again.

Positions in a piece are `int32_t`, so a piece that is too long overflows them. The pattern that cuts
a text into pieces and the test for a UTF-8 character are third-party code. What the pattern does is
a list of pieces, and the special tokens are found as RE2 finds an alternation: at the leftmost
place, and there the first that fits.
-/

namespace Xllm.Tokenizer

open Xllm.Lib

abbrev Bytes := List UInt8

/-- `std::numeric_limits<int32_t>::max()`, the rank of parts that are no token. -/
def kMaxRank : Int := 2147483647

inductive TokenizerCheck where
  | invalidRank
  | outOfRange
  | overflow
  | unfinished
  deriving DecidableEq, Repr

structure Part where
  start : Nat
  rank : Int
  deriving DecidableEq, Repr

/-! ## Byte-pair merges -/

/-- `vector::operator[]`. -/
def partAt (parts : List Part) (i : Nat) : Except TokenizerCheck Part :=
  match parts[i]? with
  | some part => .ok part
  | none => .error .outOfRange

/-- `piece.substr(s, e - s)`. A negative count is all of the rest. -/
def substr (piece : Bytes) (s e : Nat) : Except TokenizerCheck Bytes :=
  if piece.length < s then .error .outOfRange
  else if e < s then .ok (piece.drop s)
  else .ok ((piece.drop s).take (e - s))

/-- `get_rank`. -/
def getRank (encoder : Bytes → Option Int) (piece : Bytes) (parts : List Part)
    (start skip : Nat) : Except TokenizerCheck (Option Int) :=
  if start + skip + 2 < parts.length then do
    let s ← partAt parts start
    let e ← partAt parts (start + skip + 2)
    let key ← substr piece s.start e.start
    return encoder key
  else .ok none

/-- `parts[i].second = rank`. -/
def setRank (parts : List Part) (i : Nat) (rank : Int) : Except TokenizerCheck (List Part) := do
  let part ← partAt parts i
  return parts.set i { part with rank := rank }

def initRank (encoder : Bytes → Option Int) (piece : Bytes) (parts : List Part) (i : Nat) :
    Except TokenizerCheck (List Part) := do
  match ← getRank encoder piece parts i 0 with
  | some rank => if rank = kMaxRank then .error .invalidRank else setRank parts i rank
  | none => return parts

def initRanks (encoder : Bytes → Option Int) (piece : Bytes) (parts : List Part) :
    Except TokenizerCheck (List Part) :=
  (List.range (parts.length - 2)).foldlM (initRank encoder piece) parts

/-- The working list before the first merge. The index goes up to the size of the piece, and then
once more. -/
def initParts (encoder : Bytes → Option Int) (piece : Bytes) :
    Except TokenizerCheck (List Part) :=
  if kMaxRank ≤ piece.length then .error .overflow
  else initRanks encoder piece
    ((List.range (piece.length + 1)).map fun i => { start := i, rank := kMaxRank })

/-- The first part with the least rank, with this rank. The last item is none. -/
def findMin (parts : List Part) : Int × Nat :=
  (parts.take (parts.length - 1)).zipIdx.foldl
    (fun (minRank, minI) (part, i) => if part.rank < minRank then (part.rank, i) else (minRank, minI))
    (kMaxRank, 0)

/-- One turn of the merge loop: the next working list, or none when nothing can be merged. -/
def mergeTurn (encoder : Bytes → Option Int) (piece : Bytes) (parts : List Part) :
    Except TokenizerCheck (Option (List Part)) :=
  if parts.length ≤ 1 then .ok none
  else
    let (minRank, minI) := findMin parts
    if minRank = kMaxRank then .ok none
    else do
      let rank ← getRank encoder piece parts minI 1
      let parts ← setRank parts minI (rank.getD kMaxRank)
      let parts ←
        if 0 < minI then do
          let rank ← getRank encoder piece parts (minI - 1) 1
          setRank parts (minI - 1) (rank.getD kMaxRank)
        else .ok parts
      if minI + 1 < parts.length then return some (parts.eraseIdx (minI + 1))
      else .error .outOfRange

def mergeLoop (encoder : Bytes → Option Int) (piece : Bytes) :
    Nat → List Part → Except TokenizerCheck (List Part)
  | 0, _ => .error .unfinished
  | turns + 1, parts => do
    match ← mergeTurn encoder piece parts with
    | some parts => mergeLoop encoder piece turns parts
    | none => return parts

def emitTokens (encoder : Bytes → Option Int) (piece : Bytes) (parts : List Part) :
    Except TokenizerCheck (List Int) := do
  let ids ← (List.range (parts.length - 1)).mapM fun i => do
    let s ← partAt parts i
    let e ← partAt parts (i + 1)
    let key ← substr piece s.start e.start
    return encoder key
  return ids.reduceOption

/-- `byte_pair_encode`. Every merge takes a part away, so that a turn for each is enough. -/
def bytePairEncode (encoder : Bytes → Option Int) (piece : Bytes) :
    Except TokenizerCheck (List Int) :=
  if piece = [] then .ok []
  else do
    let parts ← initParts encoder piece
    let parts ← mergeLoop encoder piece parts.length parts
    emitTokens encoder piece parts

/-! ## The tokenizer -/

/-- `try_emplace` keeps the first entry of a token. -/
def idOf (entries : List (Bytes × Int)) (token : Bytes) : Option Int :=
  (entries.find? fun entry => decide (entry.1 = token)).map Prod.snd

/-- `try_emplace` keeps the first entry of an id. -/
def tokenOf (entries : List (Bytes × Int)) (id : Int) : Option Bytes :=
  (entries.find? fun entry => decide (entry.2 = id)).map Prod.fst

/-- `TiktokenTokenizer`: the lines of its vocabulary that could be parsed, the tokens of its
arguments, and its pattern. -/
structure TiktokenTokenizer where
  vocab : List (Bytes × Int)
  specialTokens : List (Bytes × Int) := []
  visibleSpecialTokens : List Bytes := []
  prefixTokens : List Bytes := []
  pattern : Option (Bytes → List Bytes) := none

namespace TiktokenTokenizer

variable (tokenizer : TiktokenTokenizer)

def specials : List (Bytes × Int) :=
  tokenizer.specialTokens.filter fun entry => decide (entry.1 ≠ [])

def encoder : Bytes → Option Int := idOf tokenizer.vocab

def decoder : Int → Option Bytes := tokenOf tokenizer.vocab

/-- `token_to_id`. -/
def tokenToId (token : Bytes) : Option Int :=
  (idOf tokenizer.specials token).orElse fun _ => tokenizer.encoder token

def idsOf (tokens : List Bytes) : List Int :=
  (tokens.filter fun token => decide (token ≠ [])).filterMap tokenizer.tokenToId

def prefixTokenIds : List Int := tokenizer.idsOf tokenizer.prefixTokens

/-- The special tokens that stay in a text. -/
def visibleSpecialTokenIds : List Int := tokenizer.idsOf tokenizer.visibleSpecialTokens

/-- A piece that the pattern has cut out is a token, or is merged. -/
def encodePiece (piece : Bytes) : Except TokenizerCheck (List Int) :=
  match tokenizer.encoder piece with
  | some id => .ok [id]
  | none => bytePairEncode tokenizer.encoder piece

/-- `encode_internal`. -/
def encodeInternal (text : Bytes) : Except TokenizerCheck (List Int) :=
  match tokenizer.pattern with
  | none => bytePairEncode tokenizer.encoder text
  | some cut => do
    let ids ← (cut text).mapM tokenizer.encodePiece
    return ids.flatten

/-- The leftmost special token: what comes before it, and the token itself. -/
def findSpecial (specials : List (Bytes × Int)) : Bytes → Option (Bytes × Bytes)
  | [] => none
  | byte :: rest =>
    match specials.find? fun entry => entry.1.isPrefixOf (byte :: rest) with
    | some entry => some ([], entry.1)
    | none => (findSpecial specials rest).map fun found => (byte :: found.1, found.2)

/-- The loop of `encode` over the special tokens of a text. -/
def encodeSpecials : Nat → Bytes → Except TokenizerCheck (List Int)
  | 0, _ => .error .unfinished
  | turns + 1, input =>
    match findSpecial tokenizer.specials input with
    | none => tokenizer.encodeInternal input
    | some (before, special) => do
      let ids ← tokenizer.encodeInternal before
      let rest ← encodeSpecials turns (input.drop (before.length + special.length))
      return ids ++ (idOf tokenizer.specials special).toList ++ rest

/-- `encode`, for an empty list of ids. -/
def encode (text : Bytes) : Except TokenizerCheck (List Int) := do
  let ids ← tokenizer.encodeSpecials (text.length + 1) text
  return tokenizer.prefixTokenIds ++ ids

/-- The bytes of an id. An unknown one has none. -/
def tokenBytes (skipSpecialTokens : Bool) (id : Int) : Bytes :=
  match tokenOf tokenizer.specials id with
  | some token =>
    if !skipSpecialTokens || tokenizer.visibleSpecialTokenIds.contains id then token else []
  | none => (tokenizer.decoder id).getD []

/-- U+FFFD. -/
def replacement : Bytes := [0xEF, 0xBF, 0xBD]

/-- The loop of `decode` over the bytes, for a number of turns. `isValidDecodeUtf8` says whether a
text begins with a character, and how many bytes it takes. -/
def decodeBytes (isValidDecodeUtf8 : Bytes → Bool × Nat) : Nat → Bytes → Bytes
  | 0, _ => []
  | _ + 1, [] => []
  | turns + 1, bytes =>
    let (isValid, consumed) := isValidDecodeUtf8 bytes
    if isValid then
      bytes.take consumed ++ decodeBytes isValidDecodeUtf8 turns (bytes.drop consumed)
    else replacement

/-- `decode`. -/
def decode (isValidDecodeUtf8 : Bytes → Bool × Nat) (ids : List Int) (skipSpecialTokens : Bool) :
    Bytes :=
  let bytes := ids.flatMap (tokenizer.tokenBytes skipSpecialTokens)
  decodeBytes isValidDecodeUtf8 bytes.length bytes

end TiktokenTokenizer

end Xllm.Tokenizer
