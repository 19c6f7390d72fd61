import ScoreSynth.Proofs.Score.Origins
import ScoreSynth.Proofs.Score.Reading
import ScoreSynth.Proofs.Token.Reading

/-!
# The places of notes and faults

A note of a score stands on the line of the token that writes it, and a fault that blames
a line says something true of a token on that line.  This is so whether the note or the
fault comes from a loop or from outside, and from whichever of the passes
(`Score.truthful_of_parse`).
-/

namespace ScoreSynth

open Stepwise

/-! ## Notes -/

/-- Whether a note is the one that a token writes. -/
def Note.WrittenBy (multiplier : Float) (token : Token) (note : Note) : Prop :=
  Note.ofToken multiplier token = .ok note ∧ token.line = note.line ∧
    ∃ name literal written, token.text = name ++ ',' :: literal ∧
      note.pitch.name? = some name ∧
      Numeral.natural? Numeral.bound32 literal = some written ∧
      note.duration = Note.scaled multiplier written

/-- A note that is read stands where its token stands, and sounds and lasts as the token
says. -/
theorem Note.writtenBy_of_ofToken {multiplier : Float} {token : Token} {note : Note}
    (read : Note.ofToken multiplier token = .ok note) :
    note.WrittenBy multiplier token := by
  rcases ofToken_eq_ok.1 read with ⟨name, literal, written, divided, named, number, scale, line⟩
  refine ⟨read, line.symm, name, literal, written, ?_, ?_, number, scale⟩
  · exact (parts?_eq_some_iff.1 divided).1
  · exact Pitch.ofName?_eq_some_iff.1 named

/-! ## Channels -/

/-- Whether a fault is true of some tokens, if it blames a line. -/
def Fault.Located (tokens : List Token) (fault : Fault) : Prop :=
  ∀ line, fault.line? = some line → fault.Truthful tokens

theorem located_of_truthful {α : Type} {work : Except Fault α} {tokens others : List Token}
    (subset : tokens ⊆ others) (truthful : FailsOnly (Fault.Truthful tokens) work) :
    FailsOnly (Fault.Located others) work :=
  failsOnly_mono (fun _ holds _ _ => holds.mono subset) truthful

/-- A note that is refused is blamed on its line, or on none. -/
theorem Channel.line?_of_push {channel : Channel} {note : Note} {fault : Fault}
    (refused : channel.push note = .error fault) :
    fault.line? = none ∨ fault = .durationOverflow note.line := by
  rcases push_eq_error.1 refused with failed | ⟨_, _, rfl⟩
  · rcases Settings.check_eq_error_iff.1 failed with
      ⟨_, ⟨_, rfl⟩ | ⟨_, _, ⟨_, rfl⟩ | ⟨_, _, rfl⟩⟩⟩
    all_goals exact .inl rfl
  · exact .inr rfl

theorem Channel.located_pushToken (multiplier : Float) (channel : Channel) (token : Token) :
    FailsOnly (Fault.Located [token]) (channel.pushToken multiplier token) := by
  apply failsOnly_bind_of_ok
  · exact located_of_truthful (List.Subset.refl _) (Note.truthful_ofToken multiplier token)
  intro note read fault refused line blamed
  rcases line?_of_push refused with nowhere | rfl
  · rw [nowhere] at blamed
    cases blamed
  · exact ⟨token, List.mem_cons_self, (Note.writtenBy_of_ofToken read).2.1⟩

namespace Score

theorem located_buildChannel (multiplier : Float) (index : Nat) (block : Block) :
    FailsOnly (Fault.Located block.notes) (buildChannel multiplier index block) := by
  apply failsOnly_bind
  · exact located_of_truthful (List.Subset.refl _) (Settings.truthful_ofWords _ _)
  intro settings
  rw [Channel.pushTokens_eq_foldlM]
  apply failsOnly_foldlM
  intro channel token member fault refused line blamed
  have truthful := Channel.located_pushToken multiplier channel token fault refused line blamed
  exact truthful.mono (List.cons_subset.2 ⟨member, List.nil_subset _⟩)

/-- Whatever is wrong with a body, the fault that is reported is true of its tokens. -/
theorem located_compile (multiplier : Float) (tokens : List Token) :
    FailsOnly (Fault.Located tokens) (compile multiplier tokens) := by
  apply failsOnly_bind_of_ok
  · exact located_of_truthful (List.Subset.refl _) (truthful_expandLoops tokens)
  intro expanded expand
  have copied := subset_of_expandLoops expand
  apply failsOnly_bind_of_ok
  · exact located_of_truthful copied (truthful_splitBlocks expanded)
  intro blocks split
  apply failsOnly_mapM
  intro (block, position) member fault failed line blamed
  -- The notes of a block are tokens of the body, by way of the copies that loops stand for.
  have truthful := located_buildChannel multiplier position block fault failed line blamed
  have inside := notes_subset_of_splitBlocks split (List.fst_mem_of_mem_zipIdx member)
  exact truthful.mono (List.Subset.trans inside copied)

/-- The notes of a channel are written by notes of its block. -/
theorem writtenBy_of_buildChannel {multiplier : Float} {index : Nat} {block : Block}
    {channel : Channel} (built : buildChannel multiplier index block = .ok channel)
    {note : Note} (member : note ∈ channel.notes) :
    ∃ token ∈ block.notes, note.WrittenBy multiplier token := by
  rcases buildChannel_eq_ok.1 built with ⟨settings, notes, _, read, _, _, rfl⟩
  have member : note ∈ notes := by simpa using member
  rcases exists_mem_of_mapM_eq_ok read member with ⟨token, among, readNote⟩
  exact ⟨token, among, Note.writtenBy_of_ofToken readNote⟩

theorem writtenBy_of_compile {multiplier : Float} {tokens : List Token}
    {channels : List Channel} (compiled : compile multiplier tokens = .ok channels)
    {channel : Channel} (among : channel ∈ channels) {note : Note}
    (member : note ∈ channel.notes) : ∃ token ∈ tokens, note.WrittenBy multiplier token := by
  rcases compile_eq_ok.1 compiled with ⟨expanded, blocks, expand, split, built⟩
  rcases exists_mem_of_mapM_eq_ok built among with ⟨⟨block, position⟩, placed, built⟩
  rcases writtenBy_of_buildChannel built member with ⟨token, inside, written⟩
  have inside := notes_subset_of_splitBlocks split (List.fst_mem_of_mem_zipIdx placed) inside
  exact ⟨token, subset_of_expandLoops expand inside, written⟩

/-! ## Documents -/

/-- A fault that is true of tokens on the lines of a document blames one of these lines,
or one of the first two. -/
theorem line_mem_of_truthful {lines : Nat} {tokens : List Token} {fault : Fault} {line : Nat}
    (placed : ∀ token ∈ tokens, 2 ≤ token.line ∧ token.line ≤ lines)
    (truthful : fault.Truthful tokens) (blamed : fault.line? = some line) :
    1 ≤ line ∧ line ≤ max 2 lines := by
  have bounds {token : Token} (member : token ∈ tokens) :
      1 ≤ token.line ∧ token.line ≤ max 2 lines := by
    have := placed token member
    omega
  cases fault with
  | malformed =>
      cases blamed
      rcases truthful with rfl | rfl | ⟨token, member, rfl⟩
      · omega
      · omega
      · exact bounds member
  | badCount | durationOverflow =>
      cases blamed
      rcases truthful with ⟨token, member, rfl⟩
      exact bounds member
  | nestedLoop | unknownPitch | malformedNote | misaligned =>
      cases blamed
      rcases truthful with ⟨token, member, rfl, _⟩
      exact bounds member
  | badField | transposedDrum | unplayable | outOfRange | sumOverflow | tooLong
  | sinkUnavailable => cases blamed

/-- Whatever is wrong with a document, the fault that is reported is true of its tokens,
of which there are none if the document cannot be scanned. -/
theorem located_parse (source : List Char) :
    FailsOnly (Fault.Located ((Token.scan source).toOption.getD [])) (parse source) := by
  apply failsOnly_bind_of_ok
  · exact located_of_truthful (List.nil_subset _) (Token.truthful_scan source)
  intro tokens scanned
  rw [scanned]
  apply failsOnly_bind_of_ok
  · exact located_of_truthful (List.Subset.refl _) (truthful_takeGlobals tokens)
  intro (tempo, body) taken
  apply failsOnly_bind
  · intro fault failed line blamed
    have truthful := located_compile tempo.multiplier body fault failed line blamed
    exact truthful.mono (subset_of_takeGlobals taken)
  · exact fun channels => failsOnly_ok _

/-- Places are truthful.  A note of a score is written by a token of the document that
stands on the note's line.  A fault that blames a line blames one that is there, or one of
the first two, and what it says is true of a token on that line. -/
theorem truthful_of_parse (source : List Char) :
    (∀ score, parse source = .ok score →
      ∃ tokens, Token.scan source = .ok tokens ∧
        ∀ channel ∈ score.channels, ∀ note ∈ channel.notes,
          ∃ token ∈ tokens, note.WrittenBy score.tempo.multiplier token) ∧
    ∀ fault line, parse source = .error fault → fault.line? = some line →
      1 ≤ line ∧ line ≤ max 2 (Text.lines source).length ∧
        fault.Truthful ((Token.scan source).toOption.getD []) := by
  constructor
  · intro score read
    rcases parse_eq_ok.1 read with ⟨tokens, body, scanned, taken, compiled⟩
    refine ⟨tokens, scanned, fun channel among note member => ?_⟩
    rcases writtenBy_of_compile compiled among member with ⟨token, inside, written⟩
    exact ⟨token, subset_of_takeGlobals taken inside, written⟩
  · intro fault line failed blamed
    have truthful := located_parse source fault failed line blamed
    have placed : ∀ token ∈ (Token.scan source).toOption.getD [],
        2 ≤ token.line ∧ token.line ≤ (Text.lines source).length := by
      cases scanned : Token.scan source with
      | error other => exact List.forall_mem_nil _
      | ok tokens => exact fun token member => Token.line_mem_of_scan scanned member
    rcases line_mem_of_truthful placed truthful blamed with ⟨low, high⟩
    exact ⟨low, high, truthful⟩

/-- A voice that repeats a rest and one more note. -/
def refrain (name : List Char) : List Char :=
  Text.joinLines
    [Document.header, "globalconfig tempo 100% endglobalconfig".toList,
     "channel config 100 0 default sinwave endconfig".toList,
     "loop 2 pause,50 ".toList ++ name ++ ",100 endloop endchannel".toList]

theorem truthful_of_parse_refrain :
    (∃ score, parse (refrain "B4".toList) = .ok score ∧
      ∃ tokens, Token.scan (refrain "B4".toList) = .ok tokens ∧
        ∀ channel ∈ score.channels, ∀ note ∈ channel.notes,
          ∃ token ∈ tokens, note.WrittenBy score.tempo.multiplier token) ∧
      parse (refrain "H4".toList) = .error (.unknownPitch 4 "H4".toList) ∧
      4 ≤ max 2 (Text.lines (refrain "H4".toList)).length ∧
      (Fault.unknownPitch 4 "H4".toList).Truthful
        ((Token.scan (refrain "H4".toList)).toOption.getD []) := by
  have readable : (parse (refrain "B4".toList)).toOption.isSome = true := by decide +kernel
  have failed : parse (refrain "H4".toList) = .error (.unknownPitch 4 "H4".toList) := by
    decide +kernel
  have located := (truthful_of_parse (refrain "H4".toList)).2 _ 4 failed rfl
  refine ⟨?_, failed, located.2⟩
  cases read : parse (refrain "B4".toList) with
  | error fault =>
      rw [read] at readable
      cases readable
  | ok score => exact ⟨score, rfl, (truthful_of_parse (refrain "B4".toList)).1 score read⟩

end Score

end ScoreSynth
