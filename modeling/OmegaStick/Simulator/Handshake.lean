import Mathlib.Data.List.Nodup
import OmegaStick.Library.KeyValueText
import OmegaStick.Service.Wire
import OmegaStick.Simulator.WebSocket

/-!
# The WebSocket handshake

`sha1`, `base64_encode`, `accept_key`, `origin_allowed` and `parse_handshake` of
`sim/src/ws_protocol.hpp`.

`parse_handshake` goes through the lines with five variables that a later line overwrites.
So its answer is one of the fields it was sent (`answerTo`), the last one of each name
(`headers_eq`): neither the case of a name, nor a field of another name, nor the order of
fields of different names matters (`parseHandshake_render`).
-/

namespace OmegaStick

namespace WebSocket

open TextFields KeyValueText

/-! ## SHA-1 -/

def rol (v n : UInt32) : UInt32 := (v <<< n) ||| (v >>> (32 - n))

/-- The five words of the state, `h[0]` to `h[4]`. -/
structure Sha1State where
  a : UInt32
  b : UInt32
  c : UInt32
  d : UInt32
  e : UInt32
  deriving DecidableEq, Repr

/-- The message, a one bit, zeros, and the length in bits. -/
def sha1Message (data : Bytes) : Bytes :=
  let zeros : Bytes := List.replicate ((119 - data.length % 64) % 64) 0
  let bitLen := data.length * 8
  let length : Bytes := (List.range 8).reverse.map fun i => UInt8.ofNat (bitLen >>> (i * 8))
  data ++ [0x80] ++ zeros ++ length

/-- The words of a block, and those that follow from them. -/
def sha1Words (block : Bytes) : List UInt32 :=
  let word (i : ℕ) : UInt32 :=
    ((block.getD (i * 4) 0).toUInt32 <<< 24) ||| ((block.getD (i * 4 + 1) 0).toUInt32 <<< 16) |||
      ((block.getD (i * 4 + 2) 0).toUInt32 <<< 8) ||| (block.getD (i * 4 + 3) 0).toUInt32
  (List.range 64).foldl
    (fun w j =>
      let earlier (back : ℕ) : UInt32 := w.getD (j + 16 - back) 0
      w ++ [rol (earlier 3 ^^^ earlier 8 ^^^ earlier 14 ^^^ earlier 16) 1])
    ((List.range 16).map word)

def sha1Round (w : List UInt32) (s : Sha1State) (i : ℕ) : Sha1State :=
  let (f, k) : UInt32 × UInt32 :=
    if i < 20 then ((s.b &&& s.c) ||| (~~~s.b &&& s.d), 0x5A827999)
    else if i < 40 then (s.b ^^^ s.c ^^^ s.d, 0x6ED9EBA1)
    else if i < 60 then ((s.b &&& s.c) ||| (s.b &&& s.d) ||| (s.c &&& s.d), 0x8F1BBCDC)
    else (s.b ^^^ s.c ^^^ s.d, 0xCA62C1D6)
  ⟨rol s.a 5 + f + s.e + k + w.getD i 0, s.a, rol s.b 30, s.c, s.d⟩

def sha1Block (h : Sha1State) (block : Bytes) : Sha1State :=
  let s := (List.range 80).foldl (sha1Round (sha1Words block)) h
  ⟨h.a + s.a, h.b + s.b, h.c + s.c, h.d + s.d, h.e + s.e⟩

def sha1 (data : Bytes) : Bytes :=
  let msg := sha1Message data
  let h := (List.range (msg.length / 64)).foldl
    (fun h block => sha1Block h ((msg.drop (block * 64)).take 64))
    ⟨0x67452301, 0xEFCDAB89, 0x98BADCFE, 0x10325476, 0xC3D2E1F0⟩
  [h.a, h.b, h.c, h.d, h.e].flatMap fun (word : UInt32) =>
    [(word >>> 24).toUInt8, (word >>> 16).toUInt8, (word >>> 8).toUInt8, word.toUInt8]

/-! ## Base64 -/

def base64Table : Bytes := ascii "ABCDEFGHIJKLMNOPQRSTUVWXYZabcdefghijklmnopqrstuvwxyz0123456789+/"

/-- `table[v & 63]` -/
def base64Char (v : ℕ) : UInt8 := base64Table.getD (v &&& 63) 0

def base64Encode : Bytes → Bytes
  | [] => []
  | [a] =>
      let v := a.toNat <<< 16
      [base64Char (v >>> 18), base64Char (v >>> 12), 61, 61]
  | [a, b] =>
      let v := a.toNat <<< 16 ||| b.toNat <<< 8
      [base64Char (v >>> 18), base64Char (v >>> 12), base64Char (v >>> 6), 61]
  | a :: b :: c :: rest =>
      let v := a.toNat <<< 16 ||| b.toNat <<< 8 ||| c.toNat
      [base64Char (v >>> 18), base64Char (v >>> 12), base64Char (v >>> 6), base64Char v] ++
        base64Encode rest

/-- What a character stands for. -/
def base64Value (c : UInt8) : ℕ :=
  if 97 ≤ c.toNat then c.toNat - 71
  else if 65 ≤ c.toNat then c.toNat - 65
  else if 48 ≤ c.toNat then c.toNat + 4
  else if c.toNat = 43 then 62 else 63

/-- The bytes a text in base64 stands for. -/
def base64Decode : Bytes → Bytes
  | a :: b :: c :: d :: rest =>
      let v := base64Value a * 2 ^ 18 + base64Value b * 2 ^ 12 +
        (if c = 61 then 0 else base64Value c * 2 ^ 6) + if d = 61 then 0 else base64Value d
      let bytes := [UInt8.ofNat (v >>> 16), UInt8.ofNat (v >>> 8), UInt8.ofNat v]
      bytes.take (if c = 61 then 1 else if d = 61 then 2 else 3) ++ base64Decode rest
  | _ => []

theorem ascii_ofList (text : List Char) :
    ascii (String.ofList text) = text.map fun c => c.toNat.toUInt8 := by
  rw [ascii, String.toList_ofList]

theorem base64Value_char (v : ℕ) : base64Value (base64Char v) = v % 64 ∧ base64Char v ≠ 61 := by
  have htable : base64Table = _ := ascii_ofList _
  have hall : ∀ n < 64, base64Value (base64Table.getD n 0) = n ∧
      base64Table.getD n 0 ≠ 61 := by
    rw [htable]
    decide +kernel
  rw [base64Char, Nat.and_two_pow_sub_one_eq_mod v 6]
  exact hall _ (Nat.mod_lt _ (by decide))

theorem shiftLeft_or (a b c : UInt8) :
    a.toNat <<< 16 ||| b.toNat <<< 8 = a.toNat * 2 ^ 16 + b.toNat * 2 ^ 8 ∧
      a.toNat <<< 16 ||| b.toNat <<< 8 ||| c.toNat =
        a.toNat * 2 ^ 16 + b.toNat * 2 ^ 8 + c.toNat := by
  have hb := b.toNat_lt
  have hc := c.toNat_lt
  have hpair : a.toNat <<< 16 ||| b.toNat <<< 8 = a.toNat * 2 ^ 16 + b.toNat * 2 ^ 8 := by
    rw [← Nat.shiftLeft_add_eq_or_of_lt (by rw [Nat.shiftLeft_eq]; omega), Nat.shiftLeft_eq,
      Nat.shiftLeft_eq]
  have hshift : a.toNat * 2 ^ 16 + b.toNat * 2 ^ 8 = (a.toNat * 2 ^ 8 + b.toNat) <<< 8 := by
    rw [Nat.shiftLeft_eq]
    omega
  refine ⟨hpair, ?_⟩
  rw [hpair, hshift, ← Nat.shiftLeft_add_eq_or_of_lt (by omega)]

/-- Nothing is lost in base64. -/
theorem base64Decode_encode (data : Bytes) : base64Decode (base64Encode data) = data := by
  have hbyte : ∀ (b : UInt8) (n : ℕ), n % 256 = b.toNat → UInt8.ofNat n = b := by
    intro b n h
    apply UInt8.toNat_inj.mp
    rw [UInt8.toNat_ofNat', h]
  fun_induction base64Encode data with
  | case1 => rfl
  | case2 a v =>
      have ha := a.toNat_lt
      simp only [base64Decode, (base64Value_char _).1, if_true, List.append_nil,
        List.take_succ_cons, List.take_zero, Nat.shiftRight_eq_div_pow, v, Nat.shiftLeft_eq]
      congr 1
      apply hbyte
      omega
  | case3 a b v =>
      have ha := a.toNat_lt
      have hb := b.toNat_lt
      simp only [base64Decode, (base64Value_char _).1, (base64Value_char _).2, if_true, if_false,
        List.append_nil, List.take_succ_cons, List.take_zero, Nat.shiftRight_eq_div_pow, v,
        (shiftLeft_or a b 0).1]
      congr 1
      · apply hbyte
        omega
      · congr 1
        apply hbyte
        omega
  | case4 a b c rest v ih =>
      have ha := a.toNat_lt
      have hb := b.toNat_lt
      have hc := c.toNat_lt
      simp only [List.cons_append, List.nil_append, base64Decode, (base64Value_char _).1,
        (base64Value_char _).2, if_false, ih, List.take_succ_cons, List.take_zero,
        Nat.shiftRight_eq_div_pow, v, (shiftLeft_or a b c).2]
      congr 1
      · apply hbyte
        omega
      · congr 1
        · apply hbyte
          omega
        · congr 1
          apply hbyte
          omega

/-- `accept_key` -/
def acceptKey (clientKey : Bytes) : Bytes :=
  base64Encode (sha1 (clientKey ++ ascii "258EAFA5-E914-47DA-95CA-C5AB0DC85B11"))

/-! ## Origins -/

/-- Origins that are allowed as they are. -/
def allowedOrigins : List Bytes :=
  [ascii "null", ascii "file://", ascii "https://atdev-inc.github.io"]

/-- Origins that are allowed on any port. -/
def localOrigins : List Bytes := [ascii "http://localhost", ascii "http://127.0.0.1"]

/-- What may follow a local origin. -/
def isPort : Bytes → Bool
  | [] => true
  | c :: digits => c == 58 && !digits.isEmpty && digits.all fun c => 48 ≤ c && c ≤ 57

/-- `origin_allowed` -/
def originAllowed : Option Bytes → Bool
  | none => true
  | some o =>
      allowedOrigins.contains o ||
        localOrigins.any fun start => start.isPrefixOf o && isPort (o.drop start.length)

/-- No page of another host is allowed. -/
theorem originAllowed_iff (o : Bytes) :
    originAllowed (some o) = true ↔
      o ∈ allowedOrigins ∨ o ∈ localOrigins ∨
        ∃ start ∈ localOrigins, ∃ port, port ≠ [] ∧ (∀ c ∈ port, 48 ≤ c ∧ c ≤ 57) ∧
          o = start ++ 58 :: port := by
  have hport : ∀ rest, isPort rest = true ↔ rest = [] ∨ ∃ port, port ≠ [] ∧
      (∀ c ∈ port, 48 ≤ c ∧ c ≤ 57) ∧ rest = 58 :: port := by
    intro rest
    cases rest with
    | nil => simp [isPort]
    | cons c digits =>
        simp only [isPort, Bool.and_eq_true, beq_iff_eq, Bool.not_eq_true',
          List.isEmpty_eq_false_iff, List.all_eq_true, decide_eq_true_eq, reduceCtorEq,
          false_or, List.cons.injEq]
        constructor
        · rintro ⟨⟨rfl, hne⟩, hdigits⟩
          exact ⟨digits, hne, hdigits, rfl, rfl⟩
        · rintro ⟨port, hne, hdigits, rfl, rfl⟩
          exact ⟨⟨rfl, hne⟩, hdigits⟩
  simp only [originAllowed, Bool.or_eq_true, List.contains_iff_mem, List.any_eq_true,
    Bool.and_eq_true, List.isPrefixOf_iff_prefix, hport]
  refine or_congr_right ?_
  constructor
  · rintro ⟨start, hstart, ⟨rest, rfl⟩, hrest⟩
    rw [List.drop_left] at hrest
    rcases hrest with rfl | ⟨port, hne, hdigits, rfl⟩
    · exact .inl (by rwa [List.append_nil])
    · exact .inr ⟨start, hstart, port, hne, hdigits, rfl⟩
  · rintro (hlocal | ⟨start, hstart, port, hne, hdigits, rfl⟩)
    · exact ⟨o, hlocal, List.prefix_rfl, .inl (by rw [List.drop_length])⟩
    · refine ⟨start, hstart, List.prefix_append _ _, .inr ⟨port, hne, hdigits, ?_⟩⟩
      rw [List.drop_left]

/-! ## The request -/

structure Handshake where
  /-- 101 accepted, else the HTTP status to answer with -/
  status : ℕ
  reason : Bytes
  /-- Sec-WebSocket-Accept, when accepted -/
  accept : Bytes
  deriving DecidableEq, Repr

def lowerByte (c : UInt8) : UInt8 := if 65 ≤ c ∧ c ≤ 90 then c - 65 + 97 else c

def lower (text : Bytes) : Bytes := text.map lowerByte

def trim (text : Bytes) : Bytes :=
  ((text.dropWhile fun c => c = 32 || c = 9).reverse.dropWhile fun c =>
    c = 32 || c = 9 || c = 13).reverse

/-- `find` of a substring is not `npos`. -/
def contains (text pattern : Bytes) : Bool := text.tails.any pattern.isPrefixOf

/-- The variables `parse_handshake` goes through the lines with. -/
structure Headers where
  key : Option Bytes
  origin : Option Bytes
  version : Option Bytes
  upgradeWs : Bool
  connectionUpgrade : Bool
  deriving DecidableEq, Repr

namespace Headers

def new : Headers := ⟨none, none, none, false, false⟩

/-- One line; a line without a colon changes nothing. -/
def take (h : Headers) (line : Bytes) : Headers :=
  match cutAt 58 line with
  | none => h
  | some (before, after) =>
      let name := lower (trim before)
      let value := trim after
      if name = ascii "upgrade" then { h with upgradeWs := lower value = ascii "websocket" }
      else if name = ascii "connection" then
        { h with connectionUpgrade := contains (lower value) (ascii "upgrade") }
      else if name = ascii "sec-websocket-key" then { h with key := some value }
      else if name = ascii "sec-websocket-version" then { h with version := some value }
      else if name = ascii "origin" then { h with origin := some value }
      else h

end Headers

def reject (status : ℕ) (reason : String) : Handshake := ⟨status, ascii reason, []⟩

/-- What is answered behind the loop. -/
def Headers.answer (h : Headers) : Handshake :=
  if !originAllowed h.origin then reject 403 "Forbidden"
  else if !h.upgradeWs || !h.connectionUpgrade || (h.key.getD []).isEmpty then
    reject 400 "Bad Request"
  else if h.version ≠ some (ascii "13") then reject 426 "Upgrade Required"
  else ⟨101, [], acceptKey (h.key.getD [])⟩

theorem Headers.status_answer (h : Headers) :
    h.answer.status = 101 ↔
      originAllowed h.origin = true ∧ h.upgradeWs = true ∧ h.connectionUpgrade = true ∧
        (∃ key, h.key = some key ∧ key ≠ []) ∧ h.version = some (ascii "13") := by
  have hkey : (h.key.getD []).isEmpty = false ↔ ∃ key, h.key = some key ∧ key ≠ [] := by
    cases h.key with
    | none => simp
    | some key => simp
  unfold Headers.answer
  split_ifs with horigin hupgrade hversion
  · exact iff_of_false (by decide) fun h => by simp [h.1] at horigin
  · refine iff_of_false (by decide) ?_
    rintro ⟨-, hws, hconnection, hkeyed, -⟩
    rw [hws, hconnection, hkey.mpr hkeyed] at hupgrade
    exact absurd hupgrade (by decide)
  · exact iff_of_false (by decide) fun h => hversion h.2.2.2.2
  · simp only [Bool.or_eq_true, Bool.not_eq_true', not_or, Bool.not_eq_false,
      Bool.not_eq_true] at horigin hupgrade
    exact iff_of_true rfl ⟨horigin, hupgrade.1.1, hupgrade.1.2, hkey.mp hupgrade.2,
      not_not.mp hversion⟩

theorem Headers.accept_answer {h : Headers} (hstatus : h.answer.status = 101) {key : Bytes}
    (hkey : h.key = some key) : h.answer.accept = acceptKey key := by
  revert hstatus
  unfold Headers.answer
  split_ifs
  · exact fun h => absurd h (by decide)
  · exact fun h => absurd h (by decide)
  · exact fun h => absurd h (by decide)
  · rw [hkey]
    exact fun _ => rfl

/-- `parse_handshake` -/
def parseHandshake (request : Bytes) : Handshake :=
  match cutAt 10 request with
  | none => reject 400 "Bad Request"
  | some (line, rest) =>
      if !(ascii "GET ").isPrefixOf (trim line) then reject 405 "Method Not Allowed"
      else ((lines rest).foldl Headers.take .new).answer

/-! ## Fields -/

/-- The field of a line, its name in lower case. -/
def field (line : Bytes) : Option Entry :=
  (cutAt 58 line).map fun (before, after) => (lower (trim before), trim after)

/-- The variables, from the last field of each name. -/
def headersOf (fields : List Entry) : Headers where
  key := lookup (ascii "sec-websocket-key") fields
  origin := lookup (ascii "origin") fields
  version := lookup (ascii "sec-websocket-version") fields
  upgradeWs := (lookup (ascii "upgrade") fields).any fun value => lower value = ascii "websocket"
  connectionUpgrade := (lookup (ascii "connection") fields).any fun value =>
    contains (lower value) (ascii "upgrade")

/-- A later field of the same name goes over an earlier one. -/
theorem headers_eq (text : List Bytes) :
    text.foldl Headers.take .new = headersOf (text.filterMap field) := by
  have hnames : [ascii "upgrade", ascii "connection", ascii "sec-websocket-key",
      ascii "sec-websocket-version", ascii "origin"].Nodup := by decide
  simp only [List.nodup_cons, List.mem_cons, not_or, List.not_mem_nil] at hnames
  induction text using List.reverseRecOn with
  | nil => rfl
  | append_singleton text line ih =>
      rw [List.foldl_append, List.foldl_cons, List.foldl_nil, ih, List.filterMap_append]
      cases hcut : cutAt 58 line with
      | none => simp [Headers.take, hcut, field]
      | some found =>
          obtain ⟨before, after⟩ := found
          simp only [Headers.take, hcut, field, List.filterMap_cons, Option.map_some,
            List.filterMap_nil, headersOf, lookup_append, lookup, Option.none_or]
          split_ifs <;> simp_all

/-! ## Requests as they are written -/

/-- A header field, without white space around its two parts. -/
structure HttpField where
  name : Bytes
  value : Bytes
  name_plain : 58 ∉ name ∧ 10 ∉ name
  value_plain : 10 ∉ value
  name_trimmed : trim name = name
  value_trimmed : trim value = value

namespace HttpField

def line (f : HttpField) : Bytes := f.name ++ 58 :: 32 :: (f.value ++ [13])

/-- What the field says. -/
def entry (f : HttpField) : Entry := (lower f.name, f.value)

end HttpField

/-- A request for an upgrade, up to and with the blank line. -/
def render (target : Bytes) (fields : List HttpField) : Bytes :=
  ascii "GET " ++ target ++ ascii " HTTP/1.1" ++ 13 :: 10 ::
    (fields.map HttpField.line ++ [[13]]).flatMap (· ++ [10])

theorem trim_space_return (value : Bytes) : trim (32 :: (value ++ [13])) = trim value := by
  unfold trim
  rw [List.dropWhile_cons_of_pos (by decide), List.dropWhile_append]
  split_ifs with hempty
  · rw [List.isEmpty_iff.mp hempty]
    rfl
  · rw [List.reverse_append, List.reverse_singleton, List.singleton_append,
      List.dropWhile_cons_of_pos (by decide)]

theorem HttpField.field_line (f : HttpField) : field f.line = some f.entry := by
  rw [field, HttpField.line, cutAt_append f.name_plain.1, Option.map_some]
  dsimp only
  rw [trim_space_return, f.name_trimmed, f.value_trimmed]
  rfl

theorem HttpField.newline_notMem_line (f : HttpField) : 10 ∉ f.line := by
  have hname := f.name_plain.2
  have hvalue := f.value_plain
  simp only [HttpField.line, List.mem_append, List.mem_cons, List.not_mem_nil, or_false, not_or]
  exact ⟨hname, by decide, by decide, hvalue, by decide⟩

/-- A request line is a GET. -/
theorem get_isPrefixOf (target : Bytes) :
    (ascii "GET ").isPrefixOf (trim (ascii "GET " ++ target ++ ascii " HTTP/1.1" ++ [13])) =
      true := by
  have htrim : trim (ascii "GET " ++ target ++ ascii " HTTP/1.1" ++ [13]) =
      ascii "GET " ++ target ++ ascii " HTTP/1.1" := by
    have hget : ascii "GET " = 71 :: ascii "ET " := by decide
    have hversion : ascii " HTTP/1.1" = ascii " HTTP/1." ++ [49] := by decide
    unfold trim
    rw [hget, hversion, List.cons_append, List.cons_append, List.cons_append,
      List.dropWhile_cons_of_neg (by decide), ← List.cons_append, List.reverse_append,
      List.reverse_singleton, List.singleton_append, List.dropWhile_cons_of_pos (by decide),
      ← List.append_assoc, ← List.cons_append, List.reverse_append, List.reverse_singleton,
      List.singleton_append, List.dropWhile_cons_of_neg (by decide), List.reverse_cons,
      List.reverse_reverse]
  rw [htrim, List.isPrefixOf_iff_prefix, List.append_assoc]
  exact List.prefix_append _ _

theorem parseHandshake_render {target : Bytes} (htarget : 10 ∉ target) (fields : List HttpField) :
    parseHandshake (render target fields) = (headersOf (fields.map HttpField.entry)).answer := by
  have hfirst : 10 ∉ ascii "GET " ++ target ++ ascii " HTTP/1.1" ++ [13] := by
    have hget : 10 ∉ ascii "GET " := by decide
    have hversion : 10 ∉ ascii " HTTP/1.1" := by decide
    simp only [List.mem_append, not_or]
    exact ⟨⟨⟨hget, htarget⟩, hversion⟩, by decide⟩
  have hlines : ∀ line ∈ fields.map HttpField.line ++ [[13]], 10 ∉ line := by
    intro line hline
    rcases List.mem_append.mp hline with hline | hline
    · obtain ⟨f, -, rfl⟩ := List.mem_map.mp hline
      exact f.newline_notMem_line
    · obtain rfl := List.mem_singleton.mp hline
      decide
  have hcut : cutAt 10 (render target fields) =
      some (ascii "GET " ++ target ++ ascii " HTTP/1.1" ++ [13],
        (fields.map HttpField.line ++ [[13]]).flatMap (· ++ [10])) := by
    rw [← cutAt_append hfirst, render, List.append_cons]
  have hfields : (fields.map HttpField.line ++ [[13]]).filterMap field =
      fields.map HttpField.entry := by
    rw [List.filterMap_append, List.filterMap_map]
    have hblank : [([13] : Bytes)].filterMap field = [] := rfl
    rw [hblank, List.append_nil, ← List.filterMap_eq_map]
    exact List.filterMap_congr fun f _ => f.field_line
  rw [parseHandshake, hcut]
  dsimp only
  rw [get_isPrefixOf, headers_eq, lines_flatMap hlines, hfields]
  rfl

/-- Where no name comes twice, what is under a name does not depend on the order. -/
theorem lookup_perm {first second : List Entry} (h : first.Perm second)
    (hnodup : (first.map Prod.fst).Nodup) (name : Bytes) :
    lookup name first = lookup name second := by
  have hlookup : ∀ {entries : List Entry}, (entries.map Prod.fst).Nodup → ∀ value,
      lookup name entries = some value ↔ (name, value) ∈ entries := by
    intro entries hentries value
    induction entries with
    | nil => simp [lookup]
    | cons e rest ih =>
        rw [List.map_cons, List.nodup_cons] at hentries
        have hrest := ih hentries.2
        rw [lookup, List.mem_cons, ← hrest]
        by_cases hname : e.1 = name
        · have hnone : lookup name rest = none := by
            refine lookup_eq_none fun other hother heq => hentries.1 ?_
            rw [hname, ← heq]
            exact List.mem_map_of_mem hother
          rw [hnone, if_pos hname, Option.none_or, Option.some_inj]
          constructor
          · rintro rfl
            exact .inl (Prod.ext hname.symm rfl)
          · rintro (heq | hnone)
            · exact (congrArg Prod.snd heq).symm
            · cases hnone
        · rw [if_neg hname, Option.or_none]
          refine ⟨.inr, ?_⟩
          rintro (heq | hsome)
          · exact absurd (congrArg Prod.fst heq).symm hname
          · exact hsome
  refine Option.ext fun value => ?_
  rw [hlookup hnodup, hlookup ((h.map Prod.fst).nodup hnodup), h.mem_iff]

/-- **The handshake**: a request is accepted exactly when the last field of each name says
so, in any case and, where no name comes twice, in any order; an origin of another host
never is; and what is answered is the digest of the client's key. -/
theorem handshake_render {target : Bytes} (htarget : 10 ∉ target) (fields : List HttpField) :
    ((parseHandshake (render target fields)).status = 101 ↔
      originAllowed (lookup (ascii "origin") (fields.map HttpField.entry)) = true ∧
      (∃ value, lookup (ascii "upgrade") (fields.map HttpField.entry) = some value ∧
        lower value = ascii "websocket") ∧
      (∃ value, lookup (ascii "connection") (fields.map HttpField.entry) = some value ∧
        contains (lower value) (ascii "upgrade") = true) ∧
      (∃ key, lookup (ascii "sec-websocket-key") (fields.map HttpField.entry) = some key ∧
        key ≠ []) ∧
      lookup (ascii "sec-websocket-version") (fields.map HttpField.entry) = some (ascii "13")) ∧
    (∀ origin, (parseHandshake (render target fields)).status = 101 →
      lookup (ascii "origin") (fields.map HttpField.entry) = some origin →
        origin ∈ allowedOrigins ∨ origin ∈ localOrigins ∨
          ∃ start ∈ localOrigins, ∃ port, port ≠ [] ∧ (∀ c ∈ port, 48 ≤ c ∧ c ≤ 57) ∧
            origin = start ++ 58 :: port) ∧
    (∀ key, (parseHandshake (render target fields)).status = 101 →
      lookup (ascii "sec-websocket-key") (fields.map HttpField.entry) = some key →
        base64Decode (parseHandshake (render target fields)).accept =
          sha1 (key ++ ascii "258EAFA5-E914-47DA-95CA-C5AB0DC85B11")) ∧
    ∀ other : List HttpField, fields.Perm other →
      (fields.map fun f => lower f.name).Nodup →
        parseHandshake (render target other) = parseHandshake (render target fields) := by
  refine ⟨?_, ?_, ?_, ?_⟩
  · rw [parseHandshake_render htarget, Headers.status_answer]
    simp only [headersOf, Option.any_eq_true, decide_eq_true_eq]
  · intro origin hstatus horigin
    rw [parseHandshake_render htarget, Headers.status_answer] at hstatus
    have hallowed : originAllowed (some origin) = true := horigin ▸ hstatus.1
    exact (originAllowed_iff origin).mp hallowed
  · intro key hstatus hkey
    rw [parseHandshake_render htarget] at hstatus ⊢
    rw [Headers.accept_answer hstatus hkey, acceptKey, base64Decode_encode]
  · intro other hperm hnodup
    have hentries : ((fields.map HttpField.entry).map Prod.fst).Nodup := by
      rw [List.map_map]
      exact hnodup
    rw [parseHandshake_render htarget, parseHandshake_render htarget, headersOf, headersOf]
    simp only [lookup_perm (hperm.map HttpField.entry) hentries]

/-- What a client has to send. -/
def consoleFields : List HttpField :=
  [⟨ascii "Connection", ascii "Upgrade", by decide +kernel, by decide +kernel, by decide +kernel,
      by decide +kernel⟩,
    ⟨ascii "Upgrade", ascii "websocket", by decide +kernel, by decide +kernel, by decide +kernel,
      by decide +kernel⟩,
    ⟨ascii "Sec-WebSocket-Version", ascii "13", by decide +kernel, by decide +kernel,
      by decide +kernel, by decide +kernel⟩,
    ⟨ascii "Sec-WebSocket-Key", ascii "key", by decide +kernel, by decide +kernel,
      by decide +kernel, by decide +kernel⟩]

theorem handshake_render_console :
    (parseHandshake (render (ascii "/") consoleFields)).status = 101 ∧
      parseHandshake (render (ascii "/") consoleFields.reverse) =
        parseHandshake (render (ascii "/") consoleFields) := by
  have htarget : 10 ∉ ascii "/" := by decide
  have hhandshake := handshake_render htarget consoleFields
  refine ⟨hhandshake.1.mpr (by decide +kernel), hhandshake.2.2.2 _ ?_ (by decide +kernel)⟩
  exact (List.reverse_perm consoleFields).symm

end WebSocket

end OmegaStick
