import Mathlib
import Xllm.Lib.Trie
import Xllm.Tokenizer.Tiktoken

/-!
# The RWKV tokenizer

`RwkvTokenizer` (`core/framework/tokenizer/rwkv_tokenizer.cpp`). The vocabulary is a file of lines
`id literal length` with a Python literal on each. The tokens make a trie, and a text is cut from the
left into the longest token of the trie each time.

Positions are `size_t` and are modelled by the rest of the text from there. A `flat_hash_map` is a
list of its assignments with the newest first.
-/

namespace Xllm.Tokenizer

open Xllm.Lib

inductive RwkvCheck where
  | openFailed
  | emptyVocab
  | unfinished
  deriving DecidableEq, Repr

/-! ## Python literals -/

namespace RwkvTokenizer

/-- `utf8_append_codepoint`: what is put out. -/
def utf8AppendCodepoint (codepoint : UInt32) : Bytes :=
  if codepoint ≤ 0x7F then [codepoint.toUInt8]
  else if codepoint ≤ 0x7FF then
    [((0xC0 : UInt32) ||| ((codepoint >>> 6) &&& 0x1F)).toUInt8,
      ((0x80 : UInt32) ||| (codepoint &&& 0x3F)).toUInt8]
  else if codepoint ≤ 0xFFFF then
    [((0xE0 : UInt32) ||| ((codepoint >>> 12) &&& 0x0F)).toUInt8,
      ((0x80 : UInt32) ||| ((codepoint >>> 6) &&& 0x3F)).toUInt8,
      ((0x80 : UInt32) ||| (codepoint &&& 0x3F)).toUInt8]
  else if codepoint ≤ 0x10FFFF then
    [((0xF0 : UInt32) ||| ((codepoint >>> 18) &&& 0x07)).toUInt8,
      ((0x80 : UInt32) ||| ((codepoint >>> 12) &&& 0x3F)).toUInt8,
      ((0x80 : UInt32) ||| ((codepoint >>> 6) &&& 0x3F)).toUInt8,
      ((0x80 : UInt32) ||| (codepoint &&& 0x3F)).toUInt8]
  else []

/-- `std::isdigit`. -/
def isDigit (ch : UInt8) : Bool := 0x30 ≤ ch && ch ≤ 0x39

/-- `std::isxdigit`. -/
def isXDigit (ch : UInt8) : Bool :=
  isDigit ch || (0x61 ≤ ch && ch ≤ 0x66) || (0x41 ≤ ch && ch ≤ 0x46)

/-- `std::tolower`. -/
def toLower (ch : UInt8) : UInt8 := if 0x41 ≤ ch && ch ≤ 0x5A then ch + 0x20 else ch

def digitValue (ch : UInt8) : UInt32 :=
  if isDigit ch then (ch - 0x30).toUInt32 else (toLower ch - 0x61 + 10).toUInt32

/-- `parse_hex_digits`. -/
def parseHexDigits (repr : Bytes) (digits : Nat) : Option UInt32 :=
  if repr.length < digits then none
  else if (repr.take digits).all isXDigit then
    some ((repr.take digits).foldl (fun parsed ch => (parsed <<< 4) + digitValue ch) 0)
  else none

/-- `append_codepoint`: what is put out. -/
def appendCodepoint (bytesMode : Bool) (codepoint : UInt32) : Option Bytes :=
  if bytesMode then
    if 0xFF < codepoint then none else some [codepoint.toUInt8]
  else some (utf8AppendCodepoint codepoint)

/-- `(byte & 0xC0) == 0x80`. -/
def isContinuation (byte : UInt8) : Bool := byte &&& 0xC0 == 0x80

/-- `decode_utf8_codepoint`: the code point and the bytes it takes. -/
def decodeUtf8Codepoint : Bytes → Option (UInt32 × Nat)
  | [] => none
  | lead :: rest =>
    if lead &&& 0x80 = 0 then some (lead.toUInt32, 1)
    else if lead &&& 0xE0 = 0xC0 then
      match rest with
      | b1 :: _ =>
        if isContinuation b1 then
          some (((lead &&& 0x1F).toUInt32 <<< 6) ||| (b1 &&& 0x3F).toUInt32, 2)
        else none
      | _ => none
    else if lead &&& 0xF0 = 0xE0 then
      match rest with
      | b1 :: b2 :: _ =>
        if isContinuation b1 && isContinuation b2 then
          some (((lead &&& 0x0F).toUInt32 <<< 12) ||| ((b1 &&& 0x3F).toUInt32 <<< 6) |||
            (b2 &&& 0x3F).toUInt32, 3)
        else none
      | _ => none
    else if lead &&& 0xF8 = 0xF0 then
      match rest with
      | b1 :: b2 :: b3 :: _ =>
        if isContinuation b1 && isContinuation b2 && isContinuation b3 then
          some (((lead &&& 0x07).toUInt32 <<< 18) ||| ((b1 &&& 0x3F).toUInt32 <<< 12) |||
            ((b2 &&& 0x3F).toUInt32 <<< 6) ||| (b3 &&& 0x3F).toUInt32, 4)
        else none
      | _ => none
    else none

/-- The letters that stand for one byte after a backslash. -/
def simpleEscape (esc : UInt8) : Option UInt8 :=
  match esc with
  | 0x5C => some 0x5C
  | 0x27 => some 0x27
  | 0x22 => some 0x22
  | 0x61 => some 0x07
  | 0x62 => some 0x08
  | 0x66 => some 0x0C
  | 0x6E => some 0x0A
  | 0x72 => some 0x0D
  | 0x74 => some 0x09
  | 0x76 => some 0x0B
  | _ => none

/-- The letters that are followed by a number of hexadecimal digits. -/
def hexEscape (esc : UInt8) : Option Nat :=
  match esc with
  | 0x78 => some 2
  | 0x75 => some 4
  | 0x55 => some 8
  | _ => none

/-- `parse_escape`, behind the backslash: what is put out, and the rest. -/
def parseEscape (bytesMode : Bool) : Bytes → Option (Bytes × Bytes)
  | [] => none
  | esc :: rest =>
    match simpleEscape esc, hexEscape esc with
    | some byte, _ => (appendCodepoint bytesMode byte.toUInt32).map fun out => (out, rest)
    | none, some digits => do
      let value ← parseHexDigits rest digits
      let out ← appendCodepoint bytesMode value
      return (out, rest.drop digits)
    | none, none => none

/-- The loop of `parse_python_literal` behind the opening quote, for a number of turns. Every turn
takes a byte. -/
def parseBody (bytesMode : Bool) (quote : UInt8) : Nat → Bytes → Option Bytes
  | 0, _ => none
  | _, [] => none
  | turns + 1, ch :: rest =>
    if ch = quote then
      if rest = [] then some [] else none
    else if ch = 0x5C then do
      let (out, rest) ← parseEscape bytesMode rest
      return out ++ (← parseBody bytesMode quote turns rest)
    else if bytesMode then do
      return ch :: (← parseBody bytesMode quote turns rest)
    else do
      let (codepoint, consumed) ← decodeUtf8Codepoint (ch :: rest)
      return utf8AppendCodepoint codepoint ++
        (← parseBody bytesMode quote turns ((ch :: rest).drop consumed))

/-- `ch == '\'' || ch == '"'`. -/
def isQuote (ch : UInt8) : Bool := ch == 0x27 || ch == 0x22

/-- `parse_python_literal`. -/
def parsePythonLiteral (repr : Bytes) : Option Bytes :=
  match repr with
  | [] => none
  | [ch] => if isQuote ch then parseBody false ch 1 [] else none
  | ch :: next :: rest =>
    if ch = 0x62 && isQuote next then parseBody true next repr.length rest
    else if isQuote ch then parseBody false ch repr.length (next :: rest)
    else none

/-! ## The vocabulary -/

/-- `std::isspace`. -/
def isSpace (ch : UInt8) : Bool := ch == 0x20 || (0x09 ≤ ch && ch ≤ 0x0D)

/-- `std::stoi`: none where it throws. -/
def stoi (text : Bytes) : Option Int :=
  let text := text.dropWhile isSpace
  let isNegative := text.head? == some 0x2D
  let digits := (if isNegative || text.head? == some 0x2B then text.tail else text).takeWhile isDigit
  if digits = [] then none
  else
    let magnitude : Nat := digits.foldl (fun n ch => 10 * n + (ch.toNat - 0x30)) 0
    let value : Int := if isNegative then -magnitude else magnitude
    if -2147483648 ≤ value ∧ value ≤ 2147483647 then some value else none

/-- `token_id.has_value()` is a value of the trie. -/
abbrev RwkvTrieNode := Trie UInt8 Int

/-- `VocabData`. -/
structure VocabData where
  root : RwkvTrieNode := Trie.empty
  idxToToken : List (Int × Bytes) := []
  tokenToIdx : List (Bytes × Int) := []
  vocabSize : Nat := 0

/-- A line of the vocabulary: its id and its token. Lines that are not well formed are skipped. -/
def parseVocabLine (line : Bytes) : Option (Int × Bytes) := do
  let firstSpace ← line.findIdx? fun ch => ch == 0x20
  let fromLast ← line.reverse.findIdx? fun ch => ch == 0x20
  let lastSpace := line.length - 1 - fromLast
  if lastSpace = firstSpace then none
  else
    let tokenId ← stoi (line.take firstSpace)
    let expectedLen ← stoi (line.drop (lastSpace + 1))
    let repr := (line.drop (firstSpace + 1)).take (lastSpace - firstSpace - 1)
    let tokenBytes ← parsePythonLiteral repr
    if (tokenBytes.length : Int) = expectedLen then some (tokenId, tokenBytes) else none

/-- A token is added to the three maps. The id becomes a `size_t`. -/
def VocabData.add (data : VocabData) (entry : Int × Bytes) : VocabData where
  root := data.root.insert entry.2 entry.1
  idxToToken := entry :: data.idxToToken
  tokenToIdx := (entry.2, entry.1) :: data.tokenToIdx
  vocabSize := max data.vocabSize (((entry.1 % 2 ^ 64).toNat + 1) % 2 ^ 64)

/-- The lines of a file that are tokens. -/
def vocabEntries (file : Bytes) : List (Int × Bytes) :=
  (file.splitOn 0x0A).filterMap parseVocabLine

/-- `build_vocab_data`, of the file if it can be opened. -/
def buildVocabData (file : Option Bytes) : Except RwkvCheck VocabData :=
  match file with
  | none => .error .openFailed
  | some file =>
    let data := (vocabEntries file).foldl VocabData.add {}
    if data.idxToToken = [] then .error .emptyVocab else .ok data

end RwkvTokenizer

open RwkvTokenizer

/-- `RwkvTokenizer`: its vocabulary, and the arguments it reads. -/
structure RwkvTokenizer where
  vocab : VocabData
  addBosToken : Bool := false
  addEosToken : Bool := false
  bosToken : Bytes := []
  eosToken : Bytes := []
  padToken : Bytes := []

namespace RwkvTokenizer

/-! ## Encoding -/

/-- The walk down the trie: `best_end`, counted from where the walk began, and `best_id`. -/
def matchFrom (node : RwkvTrieNode) (cursor : Nat) (best : Nat × Option Int) :
    Bytes → Nat × Option Int
  | [] => best
  | byte :: rest =>
    match node.child byte with
    | none => best
    | some child =>
      let best := if child.value.isSome then (cursor + 1, child.value) else best
      matchFrom child (cursor + 1) best rest

/-- The loop of `encode_bytes`, for a number of turns. Every turn takes a byte. -/
def encodeLoop (root : RwkvTrieNode) : Nat → Bytes → List Int → Except RwkvCheck (Bool × List Int)
  | _, [], ids => .ok (true, ids)
  | 0, _ :: _, _ => .error .unfinished
  | turns + 1, text, ids =>
    let (bestEnd, bestId) := matchFrom root 0 (0, none) text
    match bestId with
    | none => .ok (false, [])
    | some id => encodeLoop root turns (text.drop bestEnd) (ids ++ [id])

/-- `encode_bytes`. -/
def encodeBytes (data : VocabData) (text : Bytes) : Except RwkvCheck (Bool × List Int) :=
  encodeLoop data.root text.length text []

variable (tokenizer : RwkvTokenizer)

/-- `token_to_id`. -/
def tokenToId (token : Bytes) : Option Int := tokenizer.vocab.tokenToIdx.lookup token

/-- The id of a token of the arguments, if it is set. -/
def argId (token : Bytes) : Option Int := if token = [] then none else tokenizer.tokenToId token

/-- `encode`. -/
def encode (text : Bytes) (addSpecialTokens : Bool) : Except RwkvCheck (Bool × List Int) := do
  let (isEncoded, ids) ← encodeBytes tokenizer.vocab text
  if !isEncoded then return (false, ids)
  let bos := if addSpecialTokens && tokenizer.addBosToken then tokenizer.argId tokenizer.bosToken
    else none
  let eos := if addSpecialTokens && tokenizer.addEosToken then tokenizer.argId tokenizer.eosToken
    else none
  return (true, bos.toList ++ ids ++ eos.toList)

/-! ## Decoding -/

/-- The ids that are skipped. -/
def skippedIds (skipSpecialTokens : Bool) : List Int :=
  if skipSpecialTokens then
    [tokenizer.bosToken, tokenizer.eosToken, tokenizer.padToken].filterMap tokenizer.argId
  else []

/-- The bytes of ids. An unknown one has none. -/
def bytesOf (ids : List Int) (skipSpecialTokens : Bool) : Bytes :=
  (ids.filter fun id => !(tokenizer.skippedIds skipSpecialTokens).contains id).flatMap fun id =>
    (tokenizer.vocab.idxToToken.lookup id).getD []

/-- The bytes that a lead byte asks for. -/
def seqLen (byte : UInt8) : Option Nat :=
  if byte &&& 0xE0 = 0xC0 then some 2
  else if byte &&& 0xF0 = 0xE0 then some 3
  else if byte &&& 0xF8 = 0xF0 then some 4
  else none

/-- The loop of `decode` over the bytes, for a number of turns. Every turn takes a byte. -/
def decodeLoop : Nat → Bytes → Bytes
  | 0, _ => []
  | _, [] => []
  | turns + 1, byte :: rest =>
    if byte < 0x80 then byte :: decodeLoop turns rest
    else
      match seqLen byte with
      | none => TiktokenTokenizer.replacement ++ decodeLoop turns rest
      | some seqLen =>
        if (byte :: rest).length < seqLen then TiktokenTokenizer.replacement
        else if (rest.take (seqLen - 1)).all isContinuation then
          (byte :: rest).take seqLen ++ decodeLoop turns ((byte :: rest).drop seqLen)
        else TiktokenTokenizer.replacement ++ decodeLoop turns rest

/-- `decode`. -/
def decode (ids : List Int) (skipSpecialTokens : Bool) : Bytes :=
  let bytes := tokenizer.bytesOf ids skipSpecialTokens
  decodeLoop bytes.length bytes

end RwkvTokenizer

end Xllm.Tokenizer
