import ScoreSynth.Proofs.Rendering.Pieces

/-!
# The figures of a rendering

A rendering keeps the index, the rate and the duration of its channel, and has as many samples
as the notes of the channel say (`Channel.HasFigures`).  None of this depends on the tape.
-/

namespace ScoreSynth

open Stepwise

theorem Synthesis.Performs.forall₂ {α β : Type}
    {plays : α → RandomTape → β → RandomTape → Prop} {tape rest : RandomTape}
    {elements : List α} {results : List β} (performed : Performs plays tape elements results rest) :
    List.Forall₂ (fun element result => ∃ before after, plays element before result after)
      elements results := by
  induction performed with
  | nil tape => exact .nil
  | cons first _ ih => exact .cons ⟨_, _, first⟩ ih

namespace Channel

/-- How many samples a channel has. -/
def sampleCount (channel : Channel) : Nat :=
  channel.totalExtent channel.notes.toList

/-- Whether a rendering has the figures of a channel. -/
structure HasFigures (channel : Channel) (rendering : Rendering) : Prop where
  index_eq : rendering.index = channel.index
  rate_eq : rendering.rate = channel.settings.rate
  duration_eq : rendering.duration = channel.duration
  length_samples : rendering.samples.length = channel.sampleCount

theorem IsRenderedAs.hasFigures {channel : Channel} {tape rest : RandomTape}
    {rendering : Rendering} (rendered : channel.IsRenderedAs tape rendering rest) :
    channel.HasFigures rendering :=
  ⟨rendered.index_eq, rendered.rate_eq, rendered.duration_eq, rendered.length_samples⟩

end Channel

namespace Score

/-- The channels of a valid score are numbered from zero. -/
theorem Valid.map_index {score : Score} (valid : score.Valid) :
    score.channels.map (·.index) = List.range score.channels.length := by
  refine List.ext_getElem (by simp) fun position bound _ => ?_
  rw [List.length_map] at bound
  rw [List.getElem_map, List.getElem_range]
  exact (valid.channels_valid position _ (List.getElem?_eq_getElem bound)).index_eq

theorem Valid.nodup_index {score : Score} (valid : score.Valid) :
    (score.channels.map (·.index)).Nodup := by
  rw [valid.map_index]
  exact List.nodup_range

theorem steady_render (score : Score) : score.render.Steady :=
  Synthesis.steady_mapM fun channel _ => channel.steady_render

theorem hasFigures_of_render {score : Score} {tape : RandomTape} {renderings : List Rendering}
    (rendered : (score.render.run tape).1 = .ok renderings) :
    List.Forall₂ Channel.HasFigures score.channels renderings := by
  have performed := Synthesis.run_mapM_eq_ok.1 (Prod.ext rendered rfl)
  refine performed.forall₂.imp fun channel rendering played => ?_
  rcases played with ⟨before, after, played⟩
  exact (Channel.isRenderedAs_of_render played).hasFigures

end Score

end ScoreSynth
