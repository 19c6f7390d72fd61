import Mathlib.Data.List.Nodup
import ScoreSynth.Proofs.Rendering.Figures
import ScoreSynth.Summary

/-!
# Summaries join channels and renderings

An entry looks for the rendering of its channel by index, among renderings that need not be
complete nor in order.  It finds the right one because reading numbers the channels and rendering
keeps their numbers (`Rendering.find?_index_eq_some_iff`).  The numbers of samples that it takes
from there are then those that the notes say (`Summary.joins_of_parse`).
-/

namespace ScoreSynth

open Stepwise

/-! ## Finding a rendering -/

/-- Where no two renderings share an index, it does not matter which of them are searched, and in
which order. -/
theorem Rendering.find?_index_eq_some_iff {renderings kept : List Rendering}
    (distinct : (renderings.map (·.index)).Nodup) (within : kept ⊆ renderings) {index : Nat}
    {rendering : Rendering} :
    kept.find? (·.index = index) = some rendering ↔
      rendering ∈ kept ∧ rendering.index = index := by
  constructor
  · intro found
    exact ⟨List.mem_of_find?_eq_some found, by simpa using List.find?_some found⟩
  · rintro ⟨member, rfl⟩
    cases found : kept.find? (·.index = rendering.index) with
    | none =>
        have absent := List.find?_eq_none.1 found rendering member
        simp at absent
    | some other =>
        have same : other.index = rendering.index := by simpa using List.find?_some found
        have among : other ∈ renderings := within (List.mem_of_find?_eq_some found)
        rw [List.inj_on_of_nodup_map distinct among (within member) same]

namespace Channel

variable {channels : List Channel} {renderings : List Rendering}

theorem map_index_of_hasFigures (figures : List.Forall₂ HasFigures channels renderings) :
    renderings.map (·.index) = channels.map (·.index) :=
  (map_eq_of_forall₂ figures fun _ _ matched => matched.index_eq.symm).symm

theorem map_duration_of_hasFigures (figures : List.Forall₂ HasFigures channels renderings) :
    renderings.map (·.duration) = channels.map (·.duration) :=
  (map_eq_of_forall₂ figures fun _ _ matched => matched.duration_eq.symm).symm

/-- A rendering with the index of a channel is its own. -/
theorem hasFigures_of_index_eq (figures : List.Forall₂ HasFigures channels renderings)
    (distinct : (channels.map (·.index)).Nodup) {channel : Channel} {rendering : Rendering}
    (member : channel ∈ channels) (among : rendering ∈ renderings)
    (same : rendering.index = channel.index) : channel.HasFigures rendering := by
  obtain ⟨owner, owns, matched⟩ := exists_mem_of_forall₂ figures.flip among
  have shared : owner.index = channel.index := matched.index_eq.symm.trans same
  rwa [← List.inj_on_of_nodup_map distinct owns member shared]

/-- The entry of a summary for a channel that can be rendered. -/
def countedEntry (channel : Channel) : ChannelSummary :=
  { ChannelSummary.ofChannel channel with samples := some channel.sampleCount }

end Channel

/-! ## Entries -/

namespace ChannelSummary

/-- Whether an entry says of a channel what reading has found out. -/
structure Describes (entry : ChannelSummary) (channel : Channel) : Prop where
  index_eq : entry.index = channel.index
  instrument_eq : entry.instrument = channel.settings.instrument
  volume_eq : entry.volume = channel.settings.volume
  transposition_eq : entry.transposition = channel.settings.transposition
  rate_eq : entry.rate = channel.settings.rate
  notes_eq : entry.notes = channel.notes.size
  duration_eq : entry.duration = channel.duration

/-- Whether an entry joins a channel with its rendering, if that is among some renderings. -/
structure Joins (renderings : List Rendering) (entry : ChannelSummary) (channel : Channel) :
    Prop extends entry.Describes channel where
  /-- The samples are those of a rendering that is there. -/
  samples_eq_some_iff (count : Nat) : entry.samples = some count ↔
    ∃ rendering ∈ renderings, rendering.index = channel.index ∧ rendering.samples.length = count
  /-- They are as many as the notes say. -/
  length_samples : ∀ rendering ∈ renderings, rendering.index = channel.index →
    rendering.samples.length = channel.sampleCount

/-- Renderings matter to nothing but the number of samples. -/
theorem describes_withRenderings (channel : Channel) (renderings : List Rendering) :
    ((ofChannel channel).withRenderings renderings).Describes channel :=
  ⟨rfl, rfl, rfl, rfl, rfl, rfl, rfl⟩

section

variable {channels : List Channel} {renderings : List Rendering}
  (figures : List.Forall₂ Channel.HasFigures channels renderings)
  (distinct : (channels.map (·.index)).Nodup) {channel : Channel} (member : channel ∈ channels)

include figures distinct member

theorem joins_withRenderings {kept : List Rendering} (within : kept ⊆ renderings) :
    Joins kept ((ofChannel channel).withRenderings kept) channel where
  toDescribes := describes_withRenderings channel kept
  samples_eq_some_iff count := by
    have numbered : (renderings.map (·.index)).Nodup :=
      Channel.map_index_of_hasFigures figures ▸ distinct
    simp only [withRenderings, Option.map_eq_some_iff,
      Rendering.find?_index_eq_some_iff numbered within, and_assoc]
    rfl
  length_samples rendering kept' same :=
    (Channel.hasFigures_of_index_eq figures distinct member (within kept') same).length_samples

/-- With all renderings at hand, every entry has its samples. -/
theorem withRenderings_eq_countedEntry :
    (ofChannel channel).withRenderings renderings = channel.countedEntry := by
  have joins := joins_withRenderings figures distinct member (List.Subset.refl renderings)
  obtain ⟨rendering, among, matched⟩ := exists_mem_of_forall₂ figures member
  have samples := (joins.samples_eq_some_iff channel.sampleCount).2
    ⟨rendering, among, matched.index_eq, matched.length_samples⟩
  rw [Channel.countedEntry, ← samples]
  rfl

end

end ChannelSummary

/-! ## Durations -/

theorem max?_eq_some_longestDuration {durations : List Nat} (ne : durations ≠ []) :
    durations.max? = some (longestDuration durations) := by
  cases durations with
  | nil => exact absurd rfl ne
  | cons first others => rw [List.max?_cons', longestDuration, List.foldl_cons, Nat.zero_max]

/-- The duration of a rendered score is that of the score. -/
theorem Score.longest_eq_duration {score : Score} {renderings : List Rendering}
    (figures : List.Forall₂ Channel.HasFigures score.channels renderings) :
    Rendering.longest renderings = score.duration :=
  congrArg longestDuration (Channel.map_duration_of_hasFigures figures)

/-! ## Summaries -/

namespace Summary

theorem map_duration_withRenderings (score : Score) (renderings : List Rendering) :
    ((ofScore score).withRenderings renderings).channels.map (·.duration) = score.durations := by
  simp [withRenderings, ofScore, Score.durations, ChannelSummary.withRenderings,
    ChannelSummary.ofChannel]

/-- Renderings replace those that were filled in before. -/
theorem withRenderings_withRenderings (summary : Summary) (earlier later : List Rendering) :
    (summary.withRenderings earlier).withRenderings later = summary.withRenderings later := by
  simp [withRenderings, ChannelSummary.withRenderings]

theorem forall₂_withRenderings {score : Score} {renderings : List Rendering}
    {relates : ChannelSummary → Channel → Prop}
    (related : ∀ channel ∈ score.channels,
      relates ((ChannelSummary.ofChannel channel).withRenderings renderings) channel) :
    List.Forall₂ relates ((ofScore score).withRenderings renderings).channels score.channels := by
  rw [withRenderings, ofScore, List.forall₂_map_left_iff, List.forall₂_map_left_iff]
  exact List.forall₂_same.2 related

end Summary

namespace Score

/-- The summary of a score that can be rendered. -/
def countedSummary (score : Score) : Summary :=
  { Summary.ofScore score with channels := score.channels.map Channel.countedEntry }

theorem withRenderings_ofScore {score : Score} {renderings : List Rendering}
    (valid : score.Valid) (figures : List.Forall₂ Channel.HasFigures score.channels renderings) :
    (Summary.ofScore score).withRenderings renderings = score.countedSummary := by
  have entries : (score.channels.map ChannelSummary.ofChannel).map (·.withRenderings renderings) =
      score.channels.map Channel.countedEntry := by
    rw [List.map_map]
    refine List.map_congr_left fun channel member => ?_
    exact ChannelSummary.withRenderings_eq_countedEntry figures valid.nodup_index member
  rw [Summary.withRenderings, countedSummary, ← entries]
  rfl

end Score

namespace Summary

/-- A summary joins the channels of a score with their renderings, of which some may be missing
and the rest may stand in any order.  Each channel has its entry, and has its index by where it
stands.  The entry has the samples of the rendering of this channel if that is there, as many as
the notes say, and it has everything else from the channel.  The duration is that of the longest
channel, as the score has it and its renderings have it.  Renderings that were filled in before do
not matter. -/
theorem joins_of_parse {source : List Char} {score : Score} {tape : RandomTape}
    {renderings kept : List Rendering} (read : Score.parse source = .ok score)
    (rendered : (score.render.run tape).1 = .ok renderings) (within : kept ⊆ renderings) :
    let summary := (ofScore score).withRenderings kept
    score.channels.map (·.index) = List.range score.channels.length ∧
    List.Forall₂ (ChannelSummary.Joins kept) summary.channels score.channels ∧
    (∀ others, List.Forall₂ ChannelSummary.Describes
      ((ofScore score).withRenderings others).channels score.channels) ∧
    (summary.duration ∈ summary.channels.map (·.duration) ∧
      ∀ entry ∈ summary.channels, entry.duration ≤ summary.duration) ∧
    summary.duration = score.duration ∧ summary.duration = Rendering.longest renderings ∧
    ∀ later, summary.withRenderings later = (ofScore score).withRenderings later := by
  intro summary
  have valid := Score.valid_of_parse read
  have figures := Score.hasFigures_of_render rendered
  have nonempty : score.durations ≠ [] := by simpa [Score.durations] using valid.channels_ne_nil
  obtain ⟨reached, largest⟩ := List.max?_eq_some_iff.1 (max?_eq_some_longestDuration nonempty)
  refine ⟨valid.map_index, forall₂_withRenderings fun channel member => ?_, fun others => ?_,
    ⟨?_, fun entry member => ?_⟩, rfl, (Score.longest_eq_duration figures).symm,
    withRenderings_withRenderings _ kept⟩
  · exact ChannelSummary.joins_withRenderings figures valid.nodup_index member within
  · exact forall₂_withRenderings fun channel _ =>
      ChannelSummary.describes_withRenderings channel others
  · rw [map_duration_withRenderings]
    exact reached
  · refine largest entry.duration ?_
    rw [← map_duration_withRenderings score kept]
    exact List.mem_map_of_mem member

/-- A document of three channels at two rates; the first two rest. -/
def trio : List Char :=
  Text.joinLines
    [Document.header, "globalconfig tempo 100% endglobalconfig".toList,
     "channel config 80 0 8kHz oboe endconfig".toList,
     "loop 2 A4,3 pause,3 endloop endchannel".toList,
     "channel config 100 0 default drum endconfig".toList,
     "click,2 pause,9 endchannel".toList,
     "channel config 50 -12 default sinwave endconfig".toList,
     "C4,1 C4,2 endchannel".toList]

theorem joins_of_parse_trio :
    ∃ score renderings, Score.parse trio = .ok score ∧
      (score.render.run (.fresh fun _ => 0)).1 = .ok renderings ∧
      let kept := (renderings.eraseIdx 1).reverse
      let summary := (ofScore score).withRenderings kept
      kept ⊆ renderings ∧
      summary.channels.map (·.samples) = [some (24 + 49 + 24 + 49), none, some (16 + 32)] ∧
      List.Forall₂ (ChannelSummary.Joins kept) summary.channels score.channels ∧
      summary.duration = Rendering.longest renderings := by
  have counted : ((Score.parse trio).toOption.bind fun score =>
      (score.render.run (.fresh fun _ => 0)).1.toOption.map fun renderings =>
        ((ofScore score).withRenderings (renderings.eraseIdx 1).reverse).channels.map
          (·.samples)) = some [some (24 + 49 + 24 + 49), none, some (16 + 32)] := by
    decide +kernel
  cases read : Score.parse trio with
  | error fault =>
      rw [read] at counted
      cases counted
  | ok score =>
      cases rendered : (score.render.run (.fresh fun _ => 0)).1 with
      | error fault => simp [read, rendered, Except.toOption] at counted
      | ok renderings =>
          simp only [read, rendered, Except.toOption, Option.bind_some, Option.map_some,
            Option.some.injEq] at counted
          have within : (renderings.eraseIdx 1).reverse ⊆ renderings := fun _ member =>
            List.mem_of_mem_eraseIdx (List.mem_reverse.1 member)
          obtain ⟨_, joins, _, _, _, longest, _⟩ := joins_of_parse read rendered within
          exact ⟨score, renderings, rfl, rendered, within, counted, joins, longest⟩

end Summary

end ScoreSynth
