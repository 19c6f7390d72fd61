import ScoreSynth.Main
import ScoreSynth.Proofs.Channel.History
import ScoreSynth.Proofs.CommandLine.Agreement
import ScoreSynth.Proofs.Document
import ScoreSynth.Proofs.Draft.RoundTrip
import ScoreSynth.Proofs.Note.Grammar
import ScoreSynth.Proofs.Playback.Captures
import ScoreSynth.Proofs.Recorder.Records
import ScoreSynth.Proofs.Rendering.Transposition
import ScoreSynth.Proofs.Rendering.Volume
import ScoreSynth.Proofs.Resampling.SameRate
import ScoreSynth.Proofs.SampleRate.Forms
import ScoreSynth.Proofs.Score.Accounting
import ScoreSynth.Proofs.Score.Concatenation
import ScoreSynth.Proofs.Score.Cutting
import ScoreSynth.Proofs.Score.Editing
import ScoreSynth.Proofs.Score.Gaps
import ScoreSynth.Proofs.Score.GlobalGrammar
import ScoreSynth.Proofs.Score.LoopGrammar
import ScoreSynth.Proofs.Score.Overflow
import ScoreSynth.Proofs.Score.Places
import ScoreSynth.Proofs.Score.Rewriting
import ScoreSynth.Proofs.Settings.Fields
import ScoreSynth.Proofs.Token.LineByLine
