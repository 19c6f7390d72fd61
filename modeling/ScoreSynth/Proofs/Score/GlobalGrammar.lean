import ScoreSynth.Proofs.Score.Global
import ScoreSynth.Proofs.Text.Numeral
import ScoreSynth.Token.Scan

/-!
# The grammar of the global settings

A document states its tempo between the word that opens the global settings and the first
one that closes them, in one or more pairs of words (`Score.StatesTempo`).  The token lists
that begin in this way are taken, with the tempo of the last pair, and what stands behind is
handed back untouched.  Every other list is refused as malformed, and which defect it is
blamed for is a second grammar (`Score.Misopens`).

The words of the settings can also be found by their positions in the whole list.  Then they
are cut out between two ends, and both ends of every cut lie in the list (`takeGlobalsAt`).
-/

namespace ScoreSynth.Score

open Stepwise

/-- Whether a text is a percentage: a number that is spelled before a percent sign, neither
zero nor too large for thirty-two bits. -/
def Percentage (text : List Char) (percent : Nat) : Prop :=
  ∃ literal, text = literal ++ ['%'] ∧ Numeral.Spells literal percent ∧
    1 ≤ percent ∧ percent < Numeral.bound32

/-- Whether tokens are pairs of the word for the tempo and a percentage, at least one pair,
and the last one states this tempo. -/
inductive StatesTempo : List Token → Nat → Prop
  | last {name value : Token} {percent : Nat} (named : name.is .tempo = true)
      (quoted : Percentage value.text percent) : StatesTempo [name, value] percent
  | more {name value : Token} {others : List Token} {earlier percent : Nat}
      (named : name.is .tempo = true) (quoted : Percentage value.text earlier)
      (rest : StatesTempo others percent) : StatesTempo (name :: value :: others) percent

/-- Whether tokens begin with global settings that state a tempo, and end with a body. -/
def OpensWith (tokens : List Token) (tempo : Tempo) (body : List Token) : Prop :=
  ∃ opening inside closing, tokens = opening :: (inside ++ closing :: body) ∧
    opening.is .globalconfig = true ∧ StatesTempo inside tempo.percent ∧
    closing.is .endglobalconfig = true

/-- What is wrong with the words inside the global settings: behind pairs that are all right
stands one that is not. -/
inductive Misstates : List Token → Fault → Prop
  | unknown {name : Token} (others : List Token) (unnamed : name.is .tempo = false) :
      Misstates (name :: others) (.malformed name.line (.unknownSetting name.text))
  | unvalued {name : Token} (named : name.is .tempo = true) :
      Misstates [name] (.malformed name.line .missingTempoValue)
  | illegible {name value : Token} (others : List Token) (named : name.is .tempo = true)
      (unquoted : ∀ percent, ¬ Percentage value.text percent) :
      Misstates (name :: value :: others) (.malformed value.line (.badTempo value.text))
  | later {name value : Token} {others : List Token} {percent : Nat} {fault : Fault}
      (named : name.is .tempo = true) (quoted : Percentage value.text percent)
      (rest : Misstates others fault) : Misstates (name :: value :: others) fault

/-- What is wrong with tokens that do not begin with global settings. -/
inductive Misopens : List Token → Fault → Prop
  | empty : Misopens [] (.malformed 2 .noGlobalStart)
  | unopened {first : Token} (others : List Token)
      (other : first.is .globalconfig = false) :
      Misopens (first :: others) (.malformed first.line .noGlobalStart)
  | unclosed {opening : Token} {others : List Token}
      (opens : opening.is .globalconfig = true)
      (inner : ∀ token ∈ others, token.is .endglobalconfig = false) :
      Misopens (opening :: others) (.malformed opening.line .openGlobal)
  | misstated {opening closing : Token} {inside : List Token} {fault : Fault}
      (body : List Token) (opens : opening.is .globalconfig = true)
      (inner : ∀ token ∈ inside, token.is .endglobalconfig = false)
      (closes : closing.is .endglobalconfig = true) (wrong : Misstates inside fault) :
      Misopens (opening :: (inside ++ closing :: body)) fault
  | unset {opening closing : Token} (body : List Token)
      (opens : opening.is .globalconfig = true)
      (closes : closing.is .endglobalconfig = true) :
      Misopens (opening :: closing :: body) (.malformed opening.line .noTempo)

/-! ## The tempo inside -/

theorem tempoOfToken_eq_ok {token : Token} {tempo : Tempo} :
    tempoOfToken token = .ok tempo ↔ Percentage token.text tempo.percent := by
  obtain ⟨percent⟩ := tempo
  have found : (("%".toList.isSuffixOf? token.text).bind
      (Numeral.natural? Numeral.bound32)).filter (0 < ·) = some percent ↔
        Percentage token.text percent := by
    rw [Option.filter_eq_some_iff, decide_eq_true_iff, Option.bind_eq_some_iff]
    constructor
    · intro read
      rcases read with ⟨⟨literal, cut, number⟩, positive⟩
      rcases Numeral.natural?_eq_some_iff.1 number with ⟨spelled, fits⟩
      exact ⟨literal, (List.isSuffixOf?_eq_some_iff_append_eq.1 cut).symm, spelled, positive,
        fits⟩
    · intro quoted
      rcases quoted with ⟨literal, written, spelled, positive, fits⟩
      refine ⟨⟨literal, ?_, Numeral.natural?_eq_some_iff.2 ⟨spelled, fits⟩⟩, positive⟩
      exact List.isSuffixOf?_eq_some_iff_append_eq.2 written.symm
  rw [← found, tempoOfToken]
  split
  · next equal =>
      rw [equal]
      simp
  · next equal =>
      rw [equal]
      simp

theorem tempoOfToken_eq_error {token : Token} {fault : Fault} :
    tempoOfToken token = .error fault ↔
      (∀ percent, ¬ Percentage token.text percent) ∧
        fault = .malformed token.line (.badTempo token.text) := by
  have refused (percent : Nat) : tempoOfToken token ≠ .ok ⟨percent⟩ ↔
      ¬ Percentage token.text percent :=
    not_congr tempoOfToken_eq_ok
  simp only [← refused]
  rw [tempoOfToken]
  split
  · next percent _ => simp
  · simp [eq_comm]

/-- The settings inside hold a tempo exactly when they state it, or there are none and it was
held before. -/
theorem readGlobals_eq_ok {last : Option Tempo} {tokens : List Token} {tempo : Tempo} :
    readGlobals last tokens = .ok (some tempo) ↔
      tokens = [] ∧ last = some tempo ∨ StatesTempo tokens tempo.percent := by
  fun_induction readGlobals last tokens with
  | case1 last =>
      constructor
      · intro read
        cases read
        exact .inl ⟨rfl, rfl⟩
      · intro stated
        rcases stated with ⟨_, rfl⟩ | impossible
        · rfl
        · cases impossible
  | case2 last name others unknown =>
      have unnamed : name.is .tempo = false := by simpa using unknown
      constructor
      · intro read
        cases read
      · intro stated
        rcases stated with ⟨impossible, _⟩ | stated
        · cases impossible
        · cases stated with
          | last named | more named => simp [unnamed] at named
  | case3 last name known =>
      constructor
      · intro read
        cases read
      · intro stated
        rcases stated with ⟨impossible, _⟩ | impossible
        · cases impossible
        · cases impossible
  | case4 last name known value others ih =>
      have named : name.is .tempo = true := by simpa using known
      constructor
      · intro read
        rcases bind_eq_ok.1 read with ⟨next, readNext, readOthers⟩
        have quoted := tempoOfToken_eq_ok.1 readNext
        rcases (ih next).1 readOthers with ⟨rfl, same⟩ | rest
        · cases same
          exact .inr (.last named quoted)
        · exact .inr (.more named quoted rest)
      · intro stated
        rcases stated with ⟨impossible, _⟩ | stated
        · cases impossible
        · cases stated with
          | last named quoted =>
              have readNext : tempoOfToken value = .ok tempo := tempoOfToken_eq_ok.2 quoted
              exact bind_eq_ok.2 ⟨tempo, readNext, rfl⟩
          | @more _ _ _ earlier _ named quoted rest =>
              have readNext : tempoOfToken value = .ok ⟨earlier⟩ := tempoOfToken_eq_ok.2 quoted
              exact bind_eq_ok.2 ⟨⟨earlier⟩, readNext, (ih ⟨earlier⟩).2 (.inr rest)⟩

/-- No tempo is held at the end only if there was nothing to read. -/
theorem readGlobals_eq_ok_none {last : Option Tempo} {tokens : List Token} :
    readGlobals last tokens = .ok none ↔ tokens = [] ∧ last = none := by
  fun_induction readGlobals last tokens with
  | case1 last => simp
  | case2 | case3 => simp
  | case4 last name known value others ih => simp [bind_eq_ok, ih]

theorem readGlobals_eq_error {last : Option Tempo} {tokens : List Token} {fault : Fault} :
    readGlobals last tokens = .error fault ↔ Misstates tokens fault := by
  fun_induction readGlobals last tokens with
  | case1 last =>
      constructor
      · intro failed
        cases failed
      · intro wrong
        cases wrong
  | case2 last name others unknown =>
      have unnamed : name.is .tempo = false := by simpa using unknown
      constructor
      · intro failed
        cases failed
        exact .unknown others unnamed
      · intro wrong
        cases wrong with
        | unknown => rfl
        | unvalued named | illegible _ named | later named => simp [unnamed] at named
  | case3 last name known =>
      have named : name.is .tempo = true := by simpa using known
      constructor
      · intro failed
        cases failed
        exact .unvalued named
      · intro wrong
        cases wrong with
        | unknown _ unnamed => simp [named] at unnamed
        | unvalued => rfl
  | case4 last name known value others ih =>
      have named : name.is .tempo = true := by simpa using known
      constructor
      · intro failed
        rcases bind_eq_error.1 failed with unread | ⟨next, readNext, failed⟩
        · rcases tempoOfToken_eq_error.1 unread with ⟨unquoted, rfl⟩
          exact .illegible others named unquoted
        · exact .later named (tempoOfToken_eq_ok.1 readNext) ((ih next).1 failed)
      · intro wrong
        cases wrong with
        | unknown _ unnamed => simp [named] at unnamed
        | illegible _ _ unquoted =>
            exact bind_eq_error.2 (.inl (tempoOfToken_eq_error.2 ⟨unquoted, rfl⟩))
        | @later _ _ _ percent _ _ quoted rest =>
            have readNext : tempoOfToken value = .ok ⟨percent⟩ := tempoOfToken_eq_ok.2 quoted
            exact bind_eq_error.2 (.inr ⟨⟨percent⟩, readNext, (ih ⟨percent⟩).2 rest⟩)

/-- What is wrong inside is a defect of the layout. -/
theorem Misstates.exists_malformed {tokens : List Token} {fault : Fault}
    (wrong : Misstates tokens fault) : ∃ line defect, fault = .malformed line defect := by
  induction wrong with
  | unknown | unvalued | illegible => exact ⟨_, _, rfl⟩
  | later _ _ _ ih => exact ih

/-- The words that state a tempo do not close the settings. -/
theorem StatesTempo.is_endglobalconfig {tokens : List Token} {percent : Nat}
    (stated : StatesTempo tokens percent) :
    ∀ token ∈ tokens, token.is .endglobalconfig = false := by
  have name_open {name : Token} (named : name.is .tempo = true) :
      name.is .endglobalconfig = false := by
    rw [Token.is, Token.is_iff.1 named]
    rfl
  have value_open {value : Token} {number : Nat} (quoted : Percentage value.text number) :
      value.is .endglobalconfig = false := by
    -- The last character tells a percentage from the word that closes the settings.
    rcases quoted with ⟨literal, written, _⟩
    rw [← Bool.not_eq_true, Token.is_iff, written]
    intro same
    have last := congrArg List.getLast? same
    rw [List.getLast?_concat] at last
    exact absurd last (by decide)
  induction stated with
  | last named quoted => simp [name_open named, value_open quoted]
  | more named quoted _ ih =>
      exact List.forall_mem_cons.2 ⟨name_open named,
        List.forall_mem_cons.2 ⟨value_open quoted, ih⟩⟩

/-! ## The whole block -/

theorem takeGlobals_eq_ok_iff_opensWith {tokens body : List Token} {tempo : Tempo} :
    takeGlobals tokens = .ok (tempo, body) ↔ OpensWith tokens tempo body := by
  rw [takeGlobals_eq_ok]
  constructor
  · intro taken
    rcases taken with ⟨opening, inside, closing, whole, opens, _, closes, read⟩
    rcases readGlobals_eq_ok.1 read with ⟨_, impossible⟩ | stated
    · cases impossible
    · exact ⟨opening, inside, closing, whole, opens, stated, closes⟩
  · intro written
    rcases written with ⟨opening, inside, closing, whole, opens, stated, closes⟩
    exact ⟨opening, inside, closing, whole, opens, stated.is_endglobalconfig, closes,
      readGlobals_eq_ok.2 (.inr stated)⟩

theorem takeGlobals_eq_error {tokens : List Token} {fault : Fault} :
    takeGlobals tokens = .error fault ↔ Misopens tokens fault := by
  constructor
  · intro failed
    match tokens with
    | [] =>
        cases failed
        exact .empty
    | first :: others =>
      by_cases opens : first.is .globalconfig = true
      · rcases forall_or_exists_closing others with
          inner | ⟨inside, closing, body, rfl, inner, closes⟩
        · rw [takeGlobals_unclosed opens inner] at failed
          cases failed
          exact .unclosed opens inner
        · rw [takeGlobals_closed opens inner closes] at failed
          split at failed
          · next read =>
              cases failed
              exact .misstated body opens inner closes (readGlobals_eq_error.1 read)
          · next read =>
              cases failed
              rcases readGlobals_eq_ok_none.1 read with ⟨rfl, _⟩
              exact .unset body opens closes
          · cases failed
      · have unopened : first.is .globalconfig = false := Bool.eq_false_iff.2 opens
        rw [takeGlobals_unopened unopened] at failed
        cases failed
        exact .unopened others unopened
  · intro wrong
    cases wrong with
    | empty => rfl
    | unopened others other => exact takeGlobals_unopened other others
    | unclosed opens inner => exact takeGlobals_unclosed opens inner
    | misstated body opens inner closes wrong =>
        rw [takeGlobals_closed opens inner closes, readGlobals_eq_error.2 wrong]
    | @unset opening closing body opens closes =>
        exact takeGlobals_closed opens (List.forall_mem_nil _) closes body

theorem Misopens.exists_malformed {tokens : List Token} {fault : Fault}
    (wrong : Misopens tokens fault) : ∃ line defect, fault = .malformed line defect := by
  cases wrong with
  | empty | unopened | unclosed | unset => exact ⟨_, _, rfl⟩
  | misstated _ _ _ _ wrong => exact wrong.exists_malformed

/-! ## Finding the settings by position -/

/-- The elements of a list from one position up to, but not including, another.  There are
none to be had if the ends are out of order, or lie outside the list. -/
def slice? {α : Type} (elements : List α) (start stop : Nat) : Option (List α) :=
  if start ≤ stop ∧ stop ≤ elements.length then some ((elements.take stop).drop start)
  else none

/-- Read the block of global settings with all cuts made by position.  There is no result if
a cut cannot be made. -/
def takeGlobalsAt (tokens : List Token) : Option (Except Fault (Tempo × List Token)) :=
  let start := (tokens.head?.map (·.line)).getD 2
  if ! tokens.head?.any (·.is .globalconfig) then
    some (.error (.malformed start .noGlobalStart))
  else match tokens.findIdx? (·.is .endglobalconfig) with
    | none => some (.error (.malformed start .openGlobal))
    | some stop => do
        let inside ← slice? tokens 1 stop
        match readGlobals none inside with
        | .error fault => return .error fault
        | .ok none => return .error (.malformed start .noTempo)
        | .ok (some tempo) => return .ok (tempo, ← slice? tokens (stop + 1) tokens.length)

/-- A part of a list can be had between its ends. -/
theorem slice?_eq_some {α : Type} {elements part : List α} {start stop : Nat}
    (front back : List α) (whole : elements = front ++ part ++ back)
    (starts : start = front.length) (stops : stop = (front ++ part).length) :
    slice? elements start stop = some part := by
  have inside : start ≤ stop ∧ stop ≤ elements.length := by
    simp only [whole, starts, stops, List.length_append]
    omega
  rw [slice?, if_pos inside, whole, stops, List.take_left, starts, List.drop_left]

/-- Every cut can be made, and the settings found by position are those that stand before the
first closing word. -/
theorem takeGlobalsAt_eq (tokens : List Token) :
    takeGlobalsAt tokens = some (takeGlobals tokens) := by
  match tokens with
  | [] => rfl
  | first :: others =>
    by_cases opens : first.is .globalconfig = true
    · have itself : first.is .endglobalconfig = false := by
        rw [Token.is, Token.is_iff.1 opens]
        rfl
      rcases forall_or_exists_closing others with
        inner | ⟨inside, closing, body, rfl, inner, closes⟩
      · have unfound : (first :: others).findIdx? (·.is .endglobalconfig) = none :=
          List.findIdx?_eq_none_iff.2 (List.forall_mem_cons.2 ⟨itself, inner⟩)
        rw [takeGlobals_unclosed opens inner, takeGlobalsAt, unfound]
        simp [opens]
      · have before : ∀ token ∈ first :: inside, token.is .endglobalconfig = false :=
          List.forall_mem_cons.2 ⟨itself, inner⟩
        have found := Runs.findIdx?_append_cons before closes body
        rw [List.cons_append] at found
        have settings : slice? (first :: (inside ++ closing :: body)) 1
            (first :: inside).length = some inside :=
          slice?_eq_some [first] (closing :: body) (by simp) rfl rfl
        have behind : slice? (first :: (inside ++ closing :: body))
            ((first :: inside).length + 1) (first :: (inside ++ closing :: body)).length =
              some body :=
          slice?_eq_some (first :: inside ++ [closing]) [] (by simp) (by simp) (by simp)
        rw [takeGlobals_closed opens inner closes, takeGlobalsAt, found]
        simp only [List.head?_cons, Option.any_some, opens, Bool.not_true, Bool.false_eq_true,
          if_false, settings, behind, Option.bind_eq_bind, Option.bind_some]
        cases readGlobals none inside with
        | error fault => rfl
        | ok last => cases last <;> rfl
    · have unopened : first.is .globalconfig = false := Bool.eq_false_iff.2 opens
      rw [takeGlobals_unopened unopened, takeGlobalsAt]
      simp [unopened]

/-- The global settings of a document have a grammar.  A list of tokens is taken apart into a
tempo and a body exactly when it begins with settings that state this tempo and the body
stands behind them.  It is refused with a fault exactly when the second grammar finds that
fault with it, and then it is malformed.  Either the one happens or the other, and if words
are found by their positions instead, no cut reaches beyond the list. -/
theorem takeGlobals_grammar (tokens : List Token) :
    (∀ tempo body, takeGlobals tokens = .ok (tempo, body) ↔ OpensWith tokens tempo body) ∧
    (∀ fault, takeGlobals tokens = .error fault ↔ Misopens tokens fault) ∧
    ((∃ tempo body, OpensWith tokens tempo body) ∨
      ∃ line defect, takeGlobals tokens = .error (.malformed line defect)) ∧
    takeGlobalsAt tokens = some (takeGlobals tokens) := by
  refine ⟨fun _ _ => takeGlobals_eq_ok_iff_opensWith, fun _ => takeGlobals_eq_error, ?_,
    takeGlobalsAt_eq tokens⟩
  cases result : takeGlobals tokens with
  | ok taken => exact .inl ⟨_, _, takeGlobals_eq_ok_iff_opensWith.1 result⟩
  | error fault =>
      rcases (takeGlobals_eq_error.1 result).exists_malformed with ⟨line, defect, rfl⟩
      exact .inr ⟨line, defect, rfl⟩

/-- Of two tempos the second one holds, and the second closing word belongs to the body. -/
example : takeGlobals (Token.ofLine 2 0
    "globalconfig tempo 80% tempo +0150% endglobalconfig endglobalconfig".toList) =
      .ok (⟨150⟩, [⟨"endglobalconfig".toList, 2, 0⟩]) := by
  decide +kernel

end ScoreSynth.Score
