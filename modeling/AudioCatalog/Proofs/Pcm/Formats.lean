import AudioCatalog.Proofs.Pcm.Message

/-!
# Samples of different formats

A floating-point sample is brought to the nearest 32-bit one, exactly: scaling loses nothing.  So
lists of samples that stand for the same numbers in different formats have the same canonical
samples, and recordings of them the same digest.
-/

namespace AudioCatalog

open FloatFormat (binary32 samplePattern)

/-! ## Lists of samples -/

/-- Whether a pattern is that of a 16-bit sample divided by 32768. -/
def Divides (value : Int16) (pattern : UInt32) : Prop :=
  binary32.decode pattern.toNat = .finite (value.toInt / 32768)

/-- Whether the value of a pattern times 2³¹ is a 32-bit sample. -/
def ScalesTo (pattern : UInt32) (word : Int32) : Prop :=
  ∃ value : Rat, binary32.decode pattern.toNat = .finite value ∧
    value * 2147483648 = word.toInt

/-- What each pair of two lists agrees in is the same list. -/
theorem map_eq_map_of_forall₂ {α β γ : Type} {related : α → β → Prop} {f : α → γ} {g : β → γ}
    {xs : List α} {ys : List β} (hlists : List.Forall₂ related xs ys)
    (heach : ∀ x y, related x y → f x = g y) : xs.map f = ys.map g := by
  rw [← List.forall₂_eq_eq_eq, List.forall₂_map_left_iff, List.forall₂_map_right_iff]
  exact hlists.imp heach

namespace SampleList

theorem canonical_int32_of_widens {values : List Int16} {words : List Int32}
    (hwords : List.Forall₂ Widens values words) :
    (int16 values).canonical = (int32 words).canonical := by
  refine (map_eq_map_of_forall₂ hwords fun value word hword => ?_).trans (List.map_id words)
  rw [id, ← Int32.toInt_inj, hword]
  exact widens_ofInt value

theorem canonical_float32_of_scalesTo {patterns : List UInt32} {words : List Int32}
    (hpatterns : List.Forall₂ ScalesTo patterns words) :
    (float32 patterns).canonical = (int32 words).canonical := by
  refine (map_eq_map_of_forall₂ hpatterns fun pattern word hword => ?_).trans (List.map_id words)
  obtain ⟨value, hvalue, hscaled⟩ := hword
  exact canonicalFloat_eq hvalue hscaled

theorem canonical_float32_of_divides {values : List Int16} {patterns : List UInt32}
    (hpatterns : List.Forall₂ Divides values patterns) :
    (int16 values).canonical = (float32 patterns).canonical := by
  refine map_eq_map_of_forall₂ hpatterns fun value pattern hpattern => ?_
  refine (canonicalFloat_eq hpattern ?_).symm
  rw [widens_ofInt]
  push_cast
  ring

end SampleList

/-- Every floating-point sample is brought to the nearest 32-bit one, without loss in scaling, and
larger ones are not brought to smaller ones.  There are 32-bit samples and floating-point ones for
every list of 16-bit samples; all of them have the same digest, and so have floating-point samples
and the 32-bit ones that they are once scaled. -/
theorem canonical_regardless_of_format :
    (∀ pattern : UInt32,
      CanonicalSample (binary32.decode pattern.toNat) (canonicalFloat pattern).toInt) ∧
    (∀ (pattern : UInt32) (value : Rat), binary32.decode pattern.toNat = .finite value →
      Binary64.round (value * 2147483648) = value * 2147483648) ∧
    (∀ p q : UInt32, (binary32.decode p.toNat).Le (binary32.decode q.toNat) →
      canonicalFloat p ≤ canonicalFloat q) ∧
    (∀ values : List Int16,
      (∃ words, List.Forall₂ Widens values words) ∧
        ∃ patterns, List.Forall₂ Divides values patterns) ∧
    ∀ (rate : UInt32) (channels : UInt16),
      (∀ values words patterns, List.Forall₂ Widens values words →
        List.Forall₂ Divides values patterns →
        PcmStream.digest ⟨rate, channels, .int16 values⟩ =
            PcmStream.digest ⟨rate, channels, .int32 words⟩ ∧
          PcmStream.digest ⟨rate, channels, .int16 values⟩ =
            PcmStream.digest ⟨rate, channels, .float32 patterns⟩) ∧
      ∀ patterns words, List.Forall₂ ScalesTo patterns words →
        PcmStream.digest ⟨rate, channels, .float32 patterns⟩ =
          PcmStream.digest ⟨rate, channels, .int32 words⟩ := by
  refine ⟨canonicalSample_canonicalFloat, fun pattern value => Binary64.round_scaled,
    fun p q => canonicalFloat_mono,
    fun values => ⟨⟨values.map fun value => Int32.ofInt (value.toInt * 65536), ?_⟩,
      ⟨values.map samplePattern, ?_⟩⟩,
    fun rate channels => ⟨?_, ?_⟩⟩
  · exact List.forall₂_map_right_iff.mpr (List.forall₂_same.mpr fun value _ => widens_ofInt value)
  · exact List.forall₂_map_right_iff.mpr
      (List.forall₂_same.mpr fun value _ => FloatFormat.decode_samplePattern value)
  · intro values words patterns hwords hpatterns
    exact ⟨PcmStream.digest_congr rfl rfl (SampleList.canonical_int32_of_widens hwords),
      PcmStream.digest_congr rfl rfl (SampleList.canonical_float32_of_divides hpatterns)⟩
  · intro patterns words hpatterns
    exact PcmStream.digest_congr rfl rfl (SampleList.canonical_float32_of_scalesTo hpatterns)

/-- A sample of each sign and a silent one in the three formats, where the silence is a negative
zero: their digests are the same.  So are those of the patterns of 2⁻³¹ and of minus one, which
are the least positive and the most negative sample once they are scaled. -/
theorem canonical_regardless_of_format_of_three :
    binary32.decode 0xbf800000 = .finite (-1) ∧
    Binary64.round (-1 * 2147483648) = -1 * 2147483648 ∧
    (binary32.decode 0xbf800000).Le (binary32.decode 0x7f800000) ∧
    canonicalFloat 0xbf800000 ≤ canonicalFloat 0x7f800000 ∧
    List.Forall₂ Widens [1, -32768, 0] [65536, -2147483648, 0] ∧
    List.Forall₂ Divides [1, -32768, 0] [0x38000000, 0xbf800000, 0x80000000] ∧
    PcmStream.digest ⟨8000, 1, .int16 [1, -32768, 0]⟩ =
      PcmStream.digest ⟨8000, 1, .int32 [65536, -2147483648, 0]⟩ ∧
    PcmStream.digest ⟨8000, 1, .int16 [1, -32768, 0]⟩ =
      PcmStream.digest ⟨8000, 1, .float32 [0x38000000, 0xbf800000, 0x80000000]⟩ ∧
    List.Forall₂ ScalesTo [0x30000000, 0xbf800000] [1, -2147483648] ∧
    PcmStream.digest ⟨8000, 1, .float32 [0x30000000, 0xbf800000]⟩ =
      PcmStream.digest ⟨8000, 1, .int32 [1, -2147483648]⟩ := by
  obtain ⟨_, hexact, hmono, _, hdigest⟩ := canonical_regardless_of_format
  have hone : binary32.decode 0xbf800000 = .finite (-1) := by
    rw [FloatFormat.decode_binary32]
    norm_num [pow2_eq_zpow]
  have hnegative : binary32.decode 0xbf800000 = .finite ((-32768 : Int) / 32768) := by
    rw [hone]
    norm_num
  have hpositive : binary32.decode 0x38000000 = .finite ((1 : Int) / 32768) := by
    rw [FloatFormat.decode_binary32]
    norm_num [pow2_eq_zpow]
  have hsilent : binary32.decode 0x80000000 = .finite ((0 : Int) / 32768) := by
    rw [FloatFormat.decode_binary32]
    norm_num
  have hleast : binary32.decode 0x30000000 = .finite (1 / 2147483648) := by
    rw [FloatFormat.decode_binary32]
    norm_num [pow2_eq_zpow]
  have hle : (binary32.decode 0xbf800000).Le (binary32.decode 0x7f800000) := by
    rw [hone]
    exact .aboveAll FloatValue.noConfusion
  have hwords : List.Forall₂ Widens [1, -32768, 0] [65536, -2147483648, 0] :=
    .cons rfl (.cons rfl (.cons rfl .nil))
  have hpatterns : List.Forall₂ Divides [1, -32768, 0] [0x38000000, 0xbf800000, 0x80000000] :=
    .cons hpositive (.cons hnegative (.cons hsilent .nil))
  have hscaled : List.Forall₂ ScalesTo [0x30000000, 0xbf800000] [1, -2147483648] := by
    refine .cons ⟨_, hleast, ?_⟩ (.cons ⟨_, hone, ?_⟩ .nil)
    · exact (by norm_num : (1 / 2147483648 * 2147483648 : Rat) = (1 : Int))
    · exact (by norm_num : (-1 * 2147483648 : Rat) = (-2147483648 : Int))
  exact ⟨hone, hexact 0xbf800000 _ hone, hle, hmono 0xbf800000 0x7f800000 hle, hwords, hpatterns,
    ((hdigest 8000 1).1 _ _ _ hwords hpatterns).1, ((hdigest 8000 1).1 _ _ _ hwords hpatterns).2,
    hscaled, (hdigest 8000 1).2 _ _ hscaled⟩

end AudioCatalog
