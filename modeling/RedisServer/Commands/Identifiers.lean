import Mathlib.Data.List.TakeWhile
import RedisServer.Commands.Plan
import RedisServer.Database.Streams

/-!
# Identifiers as texts

An identifier is written as two numbers with a dash in between.  The identifiers of
a range may lack the second number, and may be open; `RangeBound` lists the ways to
write one, and `parseRangeStart` and `parseRangeStop` read exactly those.

`XRANGE` answers with the entries of its range, except when an entry lies strictly
between the end and the start: the two searches then cross, and the server goes
down.
-/

namespace RedisServer

open Resp KeyedStore Database

variable {text : Bytes} {id : StreamId}

namespace Commands

/-! ## Numbers and dashes -/

theorem parseTextAsNumber_print (n : UInt64) :
    parseTextAsNumber (Decimal.print n.toNat) = some n := by
  unfold parseTextAsNumber
  rw [parseUnsigned_print n.toNat_lt]
  simp

theorem print_ne_star (n : ℕ) : Decimal.print n ≠ ascii "*" := by
  intro h
  have hmem : (42 : UInt8) ∈ Decimal.print n := by
    rw [h]
    decide
  have hdigit := Decimal.isDigit_of_mem_print hmem
  cases hdigit

theorem notMem_of_parseTextAsNumber {n : UInt64} (h : parseTextAsNumber text = some n) :
    (45 : UInt8) ∉ text := by
  intro hdash
  unfold parseTextAsNumber parseUnsigned Decimal.parse at h
  split at h
  · rename_i hdigits
    have hdigit := List.all_eq_true.mp hdigits.2 45 hdash
    cases hdigit
  · cases h

theorem splitDash_of_notMem (h : (45 : UInt8) ∉ text) : splitDash text = none := by
  have hall : text.dropWhile (· != 45) = [] := by
    refine List.dropWhile_eq_nil_iff.mpr fun byte hbyte => ?_
    rw [bne_iff_ne]
    rintro rfl
    exact h hbyte
  rw [splitDash, hall]

theorem splitDash_append {before after : Bytes} (h : (45 : UInt8) ∉ before) :
    splitDash (before ++ 45 :: after) = some (before, after) := by
  have hbefore : ∀ byte ∈ before, (byte != 45) = true := by
    intro byte hbyte
    rw [bne_iff_ne]
    rintro rfl
    exact h hbyte
  unfold splitDash
  rw [List.dropWhile_append_of_pos hbefore, List.takeWhile_append_of_pos hbefore]
  simp

theorem eq_append_of_splitDash {before after : Bytes} (h : splitDash text = some (before, after)) :
    text = before ++ 45 :: after := by
  unfold splitDash at h
  cases hdrop : text.dropWhile (· != 45) with
  | nil => simp [hdrop] at h
  | cons byte rest =>
    simp only [hdrop, Option.some.injEq, Prod.mk.injEq] at h
    obtain ⟨rfl, rfl⟩ := h
    obtain rfl : byte = 45 := by
      have hhead := List.head_dropWhile_not (· != 45) (l := text) (by simp [hdrop])
      simpa [hdrop] using hhead
    rw [← hdrop, List.takeWhile_append_dropWhile]

/-- The texts that name an identifier, given the sequence that a bare number stands
for. -/
theorem parseIdWithDefault_eq_some {sequence : UInt64} :
    parseIdWithDefault sequence text = some id ↔
      (∃ milliseconds, parseTextAsNumber text = some milliseconds ∧
        id = ⟨milliseconds, sequence⟩) ∨
      ∃ before after, text = before ++ 45 :: after ∧
        parseTextAsNumber before = some id.milliseconds ∧
        parseTextAsNumber after = some id.sequence := by
  constructor
  · intro h
    unfold parseIdWithDefault at h
    cases hsplit : splitDash text with
    | none =>
      rw [hsplit] at h
      obtain ⟨milliseconds, hnumber, rfl⟩ := Option.map_eq_some_iff.mp h
      exact .inl ⟨milliseconds, hnumber, rfl⟩
    | some parts =>
      obtain ⟨before, after⟩ := parts
      simp only [hsplit] at h
      split at h
      · rename_i hbefore hafter
        cases h
        exact .inr ⟨before, after, eq_append_of_splitDash hsplit, hbefore, hafter⟩
      · cases h
  · rintro (⟨milliseconds, hnumber, rfl⟩ | ⟨before, after, rfl, hbefore, hafter⟩)
    · rw [parseIdWithDefault, splitDash_of_notMem (notMem_of_parseTextAsNumber hnumber)]
      simp [hnumber]
    · rw [parseIdWithDefault, splitDash_append (notMem_of_parseTextAsNumber hbefore)]
      simp [hbefore, hafter]

/-! ## Whole identifiers -/

theorem splitDash_toString (id : StreamId) :
    splitDash id.toString =
      some (Decimal.print id.milliseconds.toNat, Decimal.print id.sequence.toNat) := by
  have hdash : id.toString =
      Decimal.print id.milliseconds.toNat ++ 45 :: Decimal.print id.sequence.toNat := by
    simp [StreamId.toString, ascii]
  rw [hdash, splitDash_append (notMem_of_parseTextAsNumber (parseTextAsNumber_print _))]

/-- The text of an identifier is none of the signs that stand for one. -/
theorem toString_ne_sign (id : StreamId) {sign : UInt8} (hsign : Decimal.isDigit sign = false) :
    id.toString ≠ [sign] := by
  intro h
  have hdigits := congrArg (fun text => text.head?) h
  have hne : Decimal.print id.milliseconds.toNat ≠ [] := Decimal.print_ne_nil _
  obtain ⟨first, rest, hprint⟩ := List.exists_cons_of_ne_nil hne
  have hfirst : Decimal.isDigit first = true :=
    Decimal.isDigit_of_mem_print (hprint ▸ List.mem_cons_self)
  simp only [StreamId.toString, hprint, List.cons_append, List.head?_cons, Option.some.injEq]
    at hdigits
  rw [hdigits, hsign] at hfirst
  cases hfirst

/-- **An identifier is read back from its text.** -/
theorem parseId_toString (id : StreamId) : parseId id.toString = some (.explicit id) := by
  have hstar : id.toString ≠ ascii "*" := toString_ne_sign id rfl
  unfold parseId
  rw [if_neg hstar, splitDash_toString]
  simp only [parseTextAsNumber_print, if_neg (print_ne_star _), Option.map_some]

theorem parseIdWithDefault_toString (sequence : UInt64) (id : StreamId) :
    parseIdWithDefault sequence id.toString = some id := by
  rw [parseIdWithDefault, splitDash_toString]
  simp only [parseTextAsNumber_print]

theorem parseReadId_toString (id : StreamId) : parseReadId id.toString = some id :=
  parseIdWithDefault_toString 0 id

theorem parseRangeStart_toString (id : StreamId) : parseRangeStart id.toString = some id := by
  have hsign : id.toString ≠ ascii "-" := toString_ne_sign id rfl
  rw [parseRangeStart, if_neg hsign]
  exact parseIdWithDefault_toString 0 id

theorem parseRangeStop_toString (id : StreamId) : parseRangeStop id.toString = some id := by
  have hsign : id.toString ≠ ascii "+" := toString_ne_sign id rfl
  rw [parseRangeStop, if_neg hsign]
  exact parseIdWithDefault_toString maximum id

theorem toString_injective : Function.Injective StreamId.toString := by
  intro first second h
  have hfirst := parseReadId_toString first
  rw [h, parseReadId_toString] at hfirst
  exact (Option.some.inj hfirst).symm

/-- An `XREAD` of one stream starts behind the identifier that it is given. -/
theorem parseXread_toString (name key : Bytes) (id : StreamId) :
    parseXread [name, ascii "STREAMS", key, id.toString] =
      .ok ⟨[{ key, startMode := .afterId, afterId := id }], .immediate⟩ := by
  have hlatest : id.toString ≠ ascii "$" := toString_ne_sign id rfl
  have hkeyword : equalsIgnoreCase (ascii "STREAMS") (ascii "BLOCK") = false ∧
      equalsIgnoreCase (ascii "STREAMS") (ascii "STREAMS") = true := by decide
  simp [parseXread, parseStreams, parseRequests, hkeyword, hlatest, parseReadId_toString,
    Except.map]

/-- A successful `XADD` is answered with the text of the identifier that was added. -/
theorem xadd_answer {clock : Clock} {database after : Database} {command : Command}
    (h : xadd clock database command = some (.bulkString text, after)) :
    ∃ name key idText values request fields id,
      command = name :: key :: idText :: values ∧
      Database.addStream clock key request fields database = (.ok id, after) ∧
      text = id.toString := by
  unfold xadd at h
  split at h
  · rename_i name key idText field value values
    split at h
    · cases h
    · rename_i request _
      split at h
      · cases h
      · split at h
        · cases h
        · rename_i fields _
          split at h
          · rename_i id added hadd
            cases h
            exact ⟨name, key, idText, field :: value :: values, request, fields, id, rfl, hadd, rfl⟩
          · cases h
          · cases h
          · cases h
  · cases h

/-- **Identifiers round-trip through their texts.**  All four parsers read back what was
printed, so that different identifiers have different texts.  What an `XADD` answers can
be given to `XREAD` and `XRANGE`, and in the `XADD` that is propagated it asks for the
identifier that was added. -/
theorem identifier_round_trip :
    (∀ id : StreamId, parseId id.toString = some (.explicit id) ∧
      parseReadId id.toString = some id ∧ parseRangeStart id.toString = some id ∧
      parseRangeStop id.toString = some id) ∧
    Function.Injective StreamId.toString ∧
    ∀ (clock : Clock) (database after : Database) (command : Command) (text : Bytes),
      nameOf command = some .xadd →
      xadd clock database command = some (.bulkString text, after) →
      ∃ key request fields id,
        Database.addStream clock key request fields database = (.ok id, after) ∧
        parseXread [CommandName.xread.text, ascii "STREAMS", key, text] =
          .ok ⟨[{ key, startMode := .afterId, afterId := id }], .immediate⟩ ∧
        parseRangeStart text = some id ∧ parseRangeStop text = some id ∧
        ((normalizeReplicationCommand command (.bulkString text))[2]?).bind parseId =
          some (.explicit id) := by
  refine ⟨fun id => ⟨parseId_toString id, parseReadId_toString id, parseRangeStart_toString id,
    parseRangeStop_toString id⟩, toString_injective, ?_⟩
  intro clock database after command text hname hxadd
  obtain ⟨name, key, idText, values, request, fields, id, rfl, hadd, rfl⟩ := xadd_answer hxadd
  refine ⟨key, request, fields, id, hadd, parseXread_toString _ key id,
    parseRangeStart_toString id, parseRangeStop_toString id, ?_⟩
  rw [normalizeReplicationCommand, if_pos hname]
  exact parseId_toString id

/-- The response is this text. -/
def isText (text : Bytes) : Response → Bool
  | .bulkString value => decide (value = text)
  | _ => false

theorem identifier_round_trip_largest :
    ∃ id, ((normalizeReplicationCommand
        [ascii "XADD", ascii "s", ascii "18446744073709551615-*", ascii "f", ascii "v"]
        (.bulkString (ascii "18446744073709551615-0")))[2]?).bind parseId =
      some (.explicit id) := by
  have hxadd : (xadd ⟨0, 0⟩ {}
      [ascii "XADD", ascii "s", ascii "18446744073709551615-*", ascii "f", ascii "v"]).any
        (fun answer => isText (ascii "18446744073709551615-0") answer.1) = true := by
    decide +kernel
  obtain ⟨⟨response, after⟩, hanswer, htext⟩ := (Option.any_eq_true _ _).mp hxadd
  cases response with
  | bulkString text =>
    rw [of_decide_eq_true htext] at hanswer
    obtain ⟨key, request, fields, id, -, -, -, -, hparse⟩ :=
      identifier_round_trip.2.2 _ _ _ _ _ (by decide) hanswer
    exact ⟨id, hparse⟩
  | _ => cases htext

theorem length_toString_le (id : StreamId) : id.toString.length ≤ 41 := by
  have hprint : ∀ n : UInt64, (Decimal.print n.toNat).length ≤ 20 := by
    intro n
    have hlt := n.toNat_lt
    exact Decimal.length_print_le (by decide) (by omega)
  have hmilliseconds := hprint id.milliseconds
  have hsequence := hprint id.sequence
  have hdash : (ascii "-").length = 1 := rfl
  simp only [StreamId.toString, List.length_append, hdash]
  omega

/-! ## The ends of a range -/

/-- What an end of a range says. -/
inductive RangeBound where
  /-- A single sign: no bound at all. -/
  | extreme
  /-- Milliseconds alone. -/
  | bare (milliseconds : UInt64)
  | full (id : StreamId)
deriving DecidableEq, Repr

namespace RangeBound

/-- The text says so; `sign` is the one that stands for no bound on this side. -/
def Reads (sign text : Bytes) : RangeBound → Prop
  | .extreme => text = sign
  | .bare milliseconds => parseTextAsNumber text = some milliseconds
  | .full id => ∃ before after, text = before ++ 45 :: after ∧
      parseTextAsNumber before = some id.milliseconds ∧
      parseTextAsNumber after = some id.sequence

/-- The first identifier that a start admits: an omitted sequence is zero. -/
def lowest : RangeBound → StreamId
  | .extreme => ⟨0, 0⟩
  | .bare milliseconds => ⟨milliseconds, 0⟩
  | .full id => id

/-- The last identifier that an end admits: an omitted sequence is the largest one. -/
def highest : RangeBound → StreamId
  | .extreme => ⟨maximum, maximum⟩
  | .bare milliseconds => ⟨milliseconds, maximum⟩
  | .full id => id

/-- Reading a bound in general: a sign, or an identifier that may lack its sequence. -/
private theorem exists_reads_iff {sign : Bytes} {sequence : UInt64} {extreme : StreamId}
    {value : RangeBound → StreamId} (hsign : parseIdWithDefault sequence sign = none)
    (hextreme : value .extreme = extreme)
    (hbare : ∀ milliseconds, value (.bare milliseconds) = ⟨milliseconds, sequence⟩)
    (hfull : ∀ id, value (.full id) = id) :
    (if text = sign then some extreme else parseIdWithDefault sequence text) = some id ↔
      ∃ bound : RangeBound, bound.Reads sign text ∧ value bound = id := by
  have hreads : parseIdWithDefault sequence text = some id ↔
      ∃ bound : RangeBound, bound ≠ .extreme ∧ bound.Reads sign text ∧ value bound = id := by
    rw [parseIdWithDefault_eq_some]
    constructor
    · rintro (⟨milliseconds, hnumber, rfl⟩ | hparts)
      · exact ⟨.bare milliseconds, by simp, hnumber, hbare _⟩
      · exact ⟨.full id, by simp, hparts, hfull _⟩
    · rintro ⟨_ | milliseconds | id, hne, hreads, rfl⟩
      · exact absurd rfl hne
      · exact .inl ⟨milliseconds, hreads, hbare _⟩
      · rw [hfull]
        exact .inr hreads
  split
  · -- The sign itself is not a number, so no other reading applies.
    rename_i htext
    subst htext
    constructor
    · intro h
      exact ⟨.extreme, rfl, hextreme.trans (Option.some.inj h)⟩
    · rintro ⟨bound, hbound, hvalue⟩
      by_cases hne : bound = .extreme
      · rw [← hvalue, hne, hextreme]
      · have hparse := hreads.mpr ⟨bound, hne, hbound, hvalue⟩
        rw [hsign] at hparse
        cases hparse
  · rename_i htext
    rw [hreads]
    constructor
    · rintro ⟨bound, -, hbound⟩
      exact ⟨bound, hbound⟩
    · rintro ⟨bound, hbound, hvalue⟩
      refine ⟨bound, ?_, hbound, hvalue⟩
      rintro rfl
      exact htext hbound

end RangeBound

theorem parseRangeStart_eq_some :
    parseRangeStart text = some id ↔
      ∃ bound : RangeBound, bound.Reads (ascii "-") text ∧ bound.lowest = id :=
  RangeBound.exists_reads_iff rfl rfl (fun _ => rfl) fun _ => rfl

theorem parseRangeStop_eq_some :
    parseRangeStop text = some id ↔
      ∃ bound : RangeBound, bound.Reads (ascii "+") text ∧ bound.highest = id :=
  RangeBound.exists_reads_iff rfl rfl (fun _ => rfl) fun _ => rfl

/-! ## `XRANGE` -/

section Range

variable {clock : Clock} {database : Database} {key : Bytes} {entries : List StreamEntry}
  {expiresAt : Option Int}

/-- The range is cut out where the searches do not cross, and nothing is returned
where they do. -/
theorem streamRange_of_view
    (hview : view clock database key = some ⟨.stream entries, expiresAt⟩)
    (hordered : entries.Pairwise fun first second => first.id < second.id)
    (start stop : StreamId) :
    (Database.streamRange clock key start stop database).1 =
      if ∀ entry ∈ entries, ¬ (stop < entry.id ∧ entry.id < start) then
        some (.ok (between start stop entries))
      else none := by
  have hlive : live (Entry.expired clock) key database = some ⟨.stream entries, expiresAt⟩ := hview
  simp only [Database.streamRange_eq, transact, hlive, OnEntry.streamRange,
    lowerBound_le_upperBound_iff hordered]
  split
  · rename_i hapart
    rw [slice_eq_between hordered ((lowerBound_le_upperBound_iff hordered _ _).mpr hapart)]
  · rfl

theorem xrange_of_bounds {name startText stopText : Bytes} {start stop : RangeBound}
    (hstart : start.Reads (ascii "-") startText) (hstop : stop.Reads (ascii "+") stopText) :
    (xrange clock database [name, key, startText, stopText]).map Prod.fst =
      respondXrange
        (Database.streamRange clock key start.lowest stop.highest database).1 := by
  have hstart' := parseRangeStart_eq_some.mpr ⟨start, hstart, rfl⟩
  have hstop' := parseRangeStop_eq_some.mpr ⟨stop, hstop, rfl⟩
  simp only [xrange_eq_plan, xrangePlan, hstart', hstop', Plan.execute_answer,
    Database.streamRange_eq]
  cases respondXrange (transact _ key (OnEntry.streamRange _ _) database).1 <;> rfl

/-- **`XRANGE` answers with exactly its range** if and only if no entry lies strictly
between the end and the start; in particular whenever the start is not above the end,
and then an omitted sequence is the smallest one at the start and the largest one at
the end. -/
theorem xrange_exact_iff
    (hview : view clock database key = some ⟨.stream entries, expiresAt⟩)
    (hordered : entries.Pairwise fun first second => first.id < second.id)
    (name : Bytes) {startText stopText : Bytes} {start stop : RangeBound}
    (hstart : start.Reads (ascii "-") startText) (hstop : stop.Reads (ascii "+") stopText) :
    ((Database.streamRange clock key start.lowest stop.highest database).1 =
        some (.ok (between start.lowest stop.highest entries)) ∧
      (xrange clock database [name, key, startText, stopText]).map Prod.fst =
        some (.responseArray ((between start.lowest stop.highest entries).map entryResponse))) ↔
      ∀ entry ∈ entries, ¬ (stop.highest < entry.id ∧ entry.id < start.lowest) := by
  rw [xrange_of_bounds hstart hstop, streamRange_of_view hview hordered]
  split
  · rename_i hapart
    exact ⟨fun _ => hapart, fun _ => ⟨rfl, rfl⟩⟩
  · rename_i hcrossed
    exact ⟨fun h => absurd h.1 (by simp), fun hapart => absurd hapart hcrossed⟩

end Range

/-- A stream with the one entry `5-0`. -/
def oneEntryStream : Database :=
  (Database.addStream ⟨0, 0⟩ (ascii "s") (.explicit ⟨5, 0⟩) [(ascii "f", ascii "v")] {}).2

theorem xrange_exact_iff_one_entry :
    (xrange ⟨0, 0⟩ oneEntryStream
        [ascii "XRANGE", ascii "s", ascii "5", ascii "5"]).map Prod.fst =
      some (.responseArray [entryResponse ⟨⟨5, 0⟩, [(ascii "f", ascii "v")]⟩]) := by
  have hview : view ⟨0, 0⟩ oneEntryStream (ascii "s") =
      some ⟨.stream [⟨⟨5, 0⟩, [(ascii "f", ascii "v")]⟩], none⟩ := by decide +kernel
  have hnumber : parseTextAsNumber (ascii "5") = some 5 := by decide +kernel
  have hstart : (RangeBound.bare 5).Reads (ascii "-") (ascii "5") := hnumber
  have hstop : (RangeBound.bare 5).Reads (ascii "+") (ascii "5") := hnumber
  exact ((xrange_exact_iff hview (by simp) (ascii "XRANGE") hstart hstop).mpr
    (by decide +kernel)).2

/-- With the start behind the entry and the end before it, the range is empty, and yet
the server does not come to an answer. -/
theorem xrange_crossed :
    parseRangeStart (ascii "6") = some ⟨6, 0⟩ ∧ parseRangeStop (ascii "4-0") = some ⟨4, 0⟩ ∧
      between ⟨6, 0⟩ ⟨4, 0⟩ [⟨⟨5, 0⟩, [(ascii "f", ascii "v")]⟩] = [] ∧
      view ⟨0, 0⟩ oneEntryStream (ascii "s") =
        some ⟨.stream [⟨⟨5, 0⟩, [(ascii "f", ascii "v")]⟩], none⟩ ∧
      (Database.streamRange ⟨0, 0⟩ (ascii "s") ⟨6, 0⟩ ⟨4, 0⟩ oneEntryStream).1 = none ∧
      (xrange ⟨0, 0⟩ oneEntryStream
        [ascii "XRANGE", ascii "s", ascii "6", ascii "4-0"]).isNone = true := by
  decide +kernel

end Commands

end RedisServer
