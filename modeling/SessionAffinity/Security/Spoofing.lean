import SessionAffinity.Foundations.Noninterference
import SessionAffinity.Security

/-!
# Spoof detection over whole histories

The tracker of a subnet is a queue that is evicted just before a call is added to it, so it is
`kept` of the subnet's calls (`tracker_afterChecks`), and the entries that a call counts are the
subnet's calls in the window ending at it, whatever was evicted before. Calls for other
subnets do not interfere (`unwinding_spoofing`).

The verdict compares the number of distinct sources with the threshold after narrowing it to an
`int`. `rejected_iff_iff` says what that costs: from `2 ^ 31` distinct sources on, the number may
turn negative, and then the check passes what it should reject (`flood_passes_check`).
-/

namespace SessionAffinity

namespace Security

open SlidingWindow (evict recent kept Chronological)
open ByteString (decimal)

/-- The calls of `checkSpoofing` as a machine. -/
def spoofing (cfg : Config) : Machine Security (Clock × ByteString) ValidationResult where
  step sec call := checkSpoofing cfg sec call.1 call.2

/-- The trackers after a run of calls on a fresh module. -/
def afterChecks (cfg : Config) (calls : List (Clock × ByteString)) : Security :=
  (spoofing cfg).run init calls

/-- The subnet a call is for. -/
def subnetOf (call : Clock × ByteString) : Option ByteString := some (getSubnet call.2)

/-- The times and sources of the calls for a subnet. -/
def sightings (subnet : ByteString) (calls : List (Clock × ByteString)) :
    List (TimePoint × ByteString) :=
  (calls.filter fun call => getSubnet call.2 = subnet).map fun call => (call.1.steady, call.2)

/-- The calls are made at nondecreasing times. -/
def Nondecreasing (calls : List (Clock × ByteString)) : Prop :=
  calls.Pairwise fun call call' => call.1.steady ≤ call'.1.steady

instance (calls : List (Clock × ByteString)) : Decidable (Nondecreasing calls) :=
  inferInstanceAs (Decidable (List.Pairwise _ _))

/-- The distinct sources of a call: its own address, and those of the earlier calls for its
subnet in the window ending at it. -/
def sources (cfg : Config) (calls : List (Clock × ByteString)) (clk : Clock)
    (srcIp : ByteString) : Finset ByteString :=
  insert srcIp ((recent Prod.fst (seconds cfg.spoofDetectionWindowSec) clk.steady
    (sightings (getSubnet srcIp) calls)).map Prod.snd).toFinset

/-! ### One call -/

section Check

variable (cfg : Config) (sec : Security) (clk : Clock) (srcIp : ByteString)

/-- A call is added to the tracker of its subnet. -/
theorem tracker_checkSpoofing : (checkSpoofing cfg sec clk srcIp).1.tracker (getSubnet srcIp) =
    evict Prod.fst (seconds cfg.spoofDetectionWindowSec) clk.steady
      (sec.tracker (getSubnet srcIp)) ++ [(clk.steady, srcIp)] := by
  simp [checkSpoofing, tracker]

theorem tracker_checkSpoofing_of_ne {subnet : ByteString} (h : getSubnet srcIp ≠ subnet) :
    (checkSpoofing cfg sec clk srcIp).1.tracker subnet = sec.tracker subnet := by
  rw [tracker, tracker, subnetTrackers_checkSpoofing_of_ne cfg sec clk h]

/-- The verdict, as the comparison the code makes. -/
theorem checkSpoofing_ne_ok_iff : (checkSpoofing cfg sec clk srcIp).2 ≠ .ok () ↔
    cfg.spoofDetectionThreshold < toInt
      ((evict Prod.fst (seconds cfg.spoofDetectionWindowSec) clk.steady
        (sec.tracker (getSubnet srcIp)) ++ [(clk.steady, srcIp)]).map Prod.snd).dedup.length := by
  simp only [checkSpoofing]
  split_ifs with h
  · exact iff_of_true (by simp) h
  · exact iff_of_false (by simp) h

end Check

/-- **Subnets do not interfere.** -/
theorem unwinding_spoofing (cfg : Config) (subnet : ByteString) :
    (spoofing cfg).Unwinding subnetOf subnet fun sec sec' =>
      sec.subnetTrackers[subnet]? = sec'.subnetTrackers[subnet]? where
  equiv := ⟨fun _ => rfl, Eq.symm, Eq.trans⟩
  other {sec call} _ hne :=
    subnetTrackers_checkSpoofing_of_ne cfg sec call.1 fun h => hne (congrArg some h)
  next {sec sec' call} hcall h := by
    obtain rfl : getSubnet call.2 = subnet := by simpa [subnetOf] using hcall
    simp [Machine.next, spoofing, checkSpoofing, tracker, h]
  answer {sec sec' call} hcall h := by
    obtain rfl : getSubnet call.2 = subnet := Option.some.inj hcall
    simp [Machine.answer, spoofing, checkSpoofing, tracker, h]

/-! ### The tracker is the recent history -/

section Runs

variable {cfg : Config} {calls : List (Clock × ByteString)} {clk : Clock} {srcIp : ByteString}
  {subnet : ByteString}

theorem afterChecks_concat : afterChecks cfg (calls ++ [(clk, srcIp)]) =
    (checkSpoofing cfg (afterChecks cfg calls) clk srcIp).1 :=
  (spoofing cfg).run_concat _ calls (clk, srcIp)

theorem sightings_concat : sightings subnet (calls ++ [(clk, srcIp)]) =
    if getSubnet srcIp = subnet then sightings subnet calls ++ [(clk.steady, srcIp)]
    else sightings subnet calls := by
  rw [sightings, List.filter_append, List.map_append]
  split_ifs with h <;> simp [h, sightings]

theorem chronological_sightings (h : Nondecreasing calls) :
    Chronological Prod.fst (sightings subnet calls) :=
  List.pairwise_map.mpr (h.filter _)

/-- Sightings are calls, so they are not later than what all calls are not later than. -/
theorem fst_le_of_mem_sightings {t : TimePoint} (h : ∀ call ∈ calls, call.1.steady ≤ t) :
    ∀ c ∈ sightings subnet calls, c.1 ≤ t := by
  intro c hc
  obtain ⟨call, hcall, rfl⟩ := List.mem_map.mp hc
  exact h call (List.mem_of_mem_filter hcall)

/-- Calls at nondecreasing times, the last one taken off. -/
theorem Nondecreasing.of_concat (h : Nondecreasing (calls ++ [(clk, srcIp)])) :
    Nondecreasing calls ∧ ∀ call ∈ calls, call.1.steady ≤ clk.steady := by
  obtain ⟨hcalls, -, hlast⟩ := List.pairwise_append.mp h
  exact ⟨hcalls, fun call hcall => hlast call hcall _ (List.mem_singleton_self _)⟩

/-- **The tracker is what was recent at the subnet's last call.** -/
theorem tracker_afterChecks (h : Nondecreasing calls) :
    (afterChecks cfg calls).tracker subnet =
      kept Prod.fst (seconds cfg.spoofDetectionWindowSec) (sightings subnet calls) := by
  induction calls using List.reverseRecOn with
  | nil => simp [afterChecks, init, tracker, sightings]
  | append_singleton calls call ih =>
    obtain ⟨clk, srcIp⟩ := call
    obtain ⟨hcalls, hlast⟩ := h.of_concat
    rw [afterChecks_concat, sightings_concat]
    split_ifs with hsubnet
    · -- what earlier calls have evicted is outside the window of this one too
      subst hsubnet
      rw [tracker_checkSpoofing, ih hcalls, SlidingWindow.evict_kept
        (chronological_sightings hcalls) (fst_le_of_mem_sightings hlast),
        SlidingWindow.kept_concat]
    · rw [tracker_checkSpoofing_of_ne _ _ _ _ hsubnet]
      exact ih hcalls

/-- The verdict of a call, in terms of all calls so far. -/
theorem checkSpoofing_afterChecks (h : Nondecreasing (calls ++ [(clk, srcIp)])) :
    (checkSpoofing cfg (afterChecks cfg calls) clk srcIp).2 ≠ .ok () ↔
      cfg.spoofDetectionThreshold < toInt (sources cfg calls clk srcIp).card := by
  obtain ⟨hcalls, hlast⟩ := h.of_concat
  have hsorted : Chronological Prod.fst (sightings (getSubnet srcIp) calls) :=
    chronological_sightings hcalls
  have hevict := SlidingWindow.evict_kept (w := seconds cfg.spoofDetectionWindowSec) hsorted
    (fst_le_of_mem_sightings hlast)
  have hsources : sources cfg calls clk srcIp =
      ((recent Prod.fst (seconds cfg.spoofDetectionWindowSec) clk.steady
        (sightings (getSubnet srcIp) calls) ++ [(clk.steady, srcIp)]).map Prod.snd).toFinset := by
    rw [sources, List.map_append, List.toFinset_append, Finset.insert_eq, Finset.union_comm]
    rfl
  rw [checkSpoofing_ne_ok_iff, tracker_afterChecks hcalls, hevict, hsources, List.card_toFinset]

variable (cfg calls clk srcIp) in
/-- The calls for other subnets play no part in a verdict. -/
theorem checkSpoofing_purge : (checkSpoofing cfg (afterChecks cfg calls) clk srcIp).2 =
    (checkSpoofing cfg (afterChecks cfg (Machine.purge subnetOf (getSubnet srcIp) calls)) clk
      srcIp).2 := by
  have hsubnets := unwinding_spoofing cfg (getSubnet srcIp)
  have hanswer := hsubnets.answer (i := (clk, srcIp)) rfl (hsubnets.run (u := init) rfl calls)
  exact hanswer

end Runs

/-- **When spoof detection is its full-history reference.** After every run of calls for any
subnets at nondecreasing times: a call is rejected if and only if more distinct sources than the
threshold were seen in its subnet in the window ending at it, and the calls for other subnets
play no part, exactly when the number of these sources is within the threshold, or is still above
it as an `int`. -/
theorem rejected_iff_iff (cfg : Config) (calls : List (Clock × ByteString)) (clk : Clock)
    (srcIp : ByteString) (h : Nondecreasing (calls ++ [(clk, srcIp)])) :
    (((checkSpoofing cfg (afterChecks cfg calls) clk srcIp).2 ≠ .ok () ↔
        cfg.spoofDetectionThreshold < (sources cfg calls clk srcIp).card) ∧
      (checkSpoofing cfg (afterChecks cfg calls) clk srcIp).2 =
        (checkSpoofing cfg (afterChecks cfg (Machine.purge subnetOf (getSubnet srcIp) calls)) clk
          srcIp).2) ↔
      ((sources cfg calls clk srcIp).card ≤ cfg.spoofDetectionThreshold ∨
        cfg.spoofDetectionThreshold < toInt (sources cfg calls clk srcIp).card) := by
  have hle := toInt_le (sources cfg calls clk srcIp).card
  rw [and_iff_left (checkSpoofing_purge cfg calls clk srcIp), checkSpoofing_afterChecks h]
  constructor
  · intro hiff
    by_cases hfew : (sources cfg calls clk srcIp).card ≤ cfg.spoofDetectionThreshold
    · exact .inl hfew
    · exact .inr (hiff.mpr (not_le.mp hfew))
  · -- narrowing never raises the number
    rintro (hfew | hmany)
    · exact iff_of_false (by omega) (by omega)
    · exact iff_of_true hmany (by omega)

/-- Two addresses of one subnet, one of them twice and once at the exact age of the window. -/
theorem rejected_iff_iff_boundary :
    (checkSpoofing { Config.default with spoofDetectionThreshold := 1 }
      (afterChecks { Config.default with spoofDetectionThreshold := 1 }
        [(⟨0, []⟩, bytes "10.0.0.1"), (⟨0, []⟩, bytes "10.0.1.3"),
          (⟨seconds 1, []⟩, bytes "10.0.0.1")]) ⟨seconds 61, []⟩ (bytes "10.0.0.2")).2 ≠ .ok () :=
  ((rejected_iff_iff { Config.default with spoofDetectionThreshold := 1 } _ ⟨seconds 61, []⟩
    (bytes "10.0.0.2") (by decide)).mpr (by decide)).1.mpr (by decide)

/-! ### A flood of sources -/

/-- The address with a number behind the last dot. -/
def numbered (i : ℕ) : ByteString := bytes "10.0.0" ++ 46 :: decimal i

/-- A call from each of the first `n` numbered addresses, at one moment. -/
def flood (n : ℕ) : List (Clock × ByteString) := (List.range n).map fun i => (⟨0, []⟩, numbered i)

theorem numbered_injective : Function.Injective numbered := by
  intro i j h
  have htail := List.append_cancel_left h
  exact ByteString.decimal_injective (List.cons.inj htail).2

theorem getSubnet_numbered (i : ℕ) : getSubnet (numbered i) = bytes "10.0.0" := by
  have hdot : (46 : UInt8) ∉ (decimal i).reverse := by
    rw [List.mem_reverse]
    exact ByteString.not_mem_decimal (by decide) i
  -- the dot in front of the number is the last one
  have hdrop : ((numbered i).reverse.dropWhile (· ≠ 46)) = 46 :: (bytes "10.0.0").reverse := by
    rw [numbered, List.reverse_append, List.reverse_cons, List.append_assoc,
      List.dropWhile_append_of_pos]
    · rfl
    · intro b hb
      exact decide_eq_true fun h : b = 46 => hdot (h ▸ hb)
  rw [getSubnet, if_pos (by simp [numbered]), hdrop, List.tail_cons, List.reverse_reverse]

theorem nondecreasing_flood (n : ℕ) : Nondecreasing (flood n) :=
  List.pairwise_map.mpr (List.pairwise_of_forall fun _ _ => le_refl (0 : ℤ))

theorem flood_succ (n : ℕ) : flood (n + 1) = flood n ++ [(⟨0, []⟩, numbered n)] := by
  rw [flood, List.range_succ, List.map_append]
  rfl

/-- All calls of a flood are for one subnet. -/
theorem sightings_flood (n i : ℕ) : sightings (getSubnet (numbered i)) (flood n) =
    (List.range n).map fun j => (0, numbered j) := by
  have hall : (flood n).filter (fun call => getSubnet call.2 = getSubnet (numbered i)) =
      flood n := by
    refine List.filter_eq_self.mpr fun call hcall => ?_
    obtain ⟨j, -, rfl⟩ := List.mem_map.mp hcall
    exact decide_eq_true ((getSubnet_numbered j).trans (getSubnet_numbered i).symm)
  rw [sightings, hall, flood, List.map_map]
  rfl

/-- All addresses of a flood are sources of its last call. -/
theorem card_sources_flood (n : ℕ) :
    (sources .default (flood n) ⟨0, []⟩ (numbered n)).card = n + 1 := by
  have hrecent : recent Prod.fst (seconds Config.default.spoofDetectionWindowSec) 0
      ((List.range n).map fun j => ((0 : TimePoint), numbered j)) =
        (List.range n).map fun j => (0, numbered j) := by
    refine List.filter_eq_self.mpr fun c hc => ?_
    obtain ⟨j, -, rfl⟩ := List.mem_map.mp hc
    rfl
  have hsources : sources .default (flood n) ⟨0, []⟩ (numbered n) =
      (Finset.range (n + 1)).image numbered := by
    rw [sources, sightings_flood, hrecent, List.map_map, Finset.range_add_one,
      Finset.image_insert]
    congr 1
  rw [hsources, Finset.card_image_of_injective _ numbered_injective, Finset.card_range]

/-- **The number of sources is an `int`.** The call from the `2 ^ 31`st address of a subnet is
passed, although the sources in the window exceed the threshold by far. -/
theorem flood_passes_check :
    Nondecreasing (flood (2 ^ 31 - 1) ++ [(⟨0, []⟩, numbered (2 ^ 31 - 1))]) ∧
      Config.default.spoofDetectionThreshold <
        (sources .default (flood (2 ^ 31 - 1)) ⟨0, []⟩ (numbered (2 ^ 31 - 1))).card ∧
      (checkSpoofing .default (afterChecks .default (flood (2 ^ 31 - 1))) ⟨0, []⟩
        (numbered (2 ^ 31 - 1))).2 = .ok () := by
  have hcalls : Nondecreasing (flood (2 ^ 31 - 1) ++ [(⟨0, []⟩, numbered (2 ^ 31 - 1))]) := by
    rw [← flood_succ]
    exact nondecreasing_flood _
  refine ⟨hcalls, ?_, ?_⟩
  · rw [card_sources_flood]
    decide
  · by_contra hrejected
    have hmany := (checkSpoofing_afterChecks hcalls).mp hrejected
    rw [card_sources_flood] at hmany
    exact absurd hmany (by decide)

end Security

end SessionAffinity
