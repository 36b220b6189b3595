import Mathlib.Data.Finset.Basic
import VirtualSfc.Base.Run
import VirtualSfc.Plugin.Types

/-! The scanner of `nic.conf`. A scan finds the file in some condition, compares
sums, parses and publishes. The subscribers always receive. -/
namespace VirtualSfc.Plugin.ConfigWatch
open Base.Run

/-- What a scan finds; the first two carry the error of the operating system. -/
inductive Finding where
  | unopenable (err : String)
  | unreadable (err : String)
  | contents (content : List UInt8)
deriving DecidableEq, Repr

def md5Empty : List UInt8 :=
  [0xd4, 0x1d, 0x8c, 0xd9, 0x8f, 0x00, 0xb2, 0x04, 0xe9, 0x80, 0x09, 0x98, 0xec, 0xf8, 0x42, 0x7e]

/-- `calc.Sum(content)` appends the digest to its argument. -/
def md5Sum (content : List UInt8) : List UInt8 := content ++ md5Empty

/-- `subscribers` are the keys of the map. -/
structure ConfigState where
  conf : Config
  sum : List UInt8
  subscribers : Finset String

def ConfigState.start (subscribers : Finset String) : ConfigState :=
  ⟨⟨"", []⟩, [], subscribers⟩

/-- The events that the loop over the map sends, in whatever order. -/
def ConfigState.notifyAll (c : ConfigState) : Multiset String := c.subscribers.val

structure Scanned where
  state : ConfigState
  err : Option String
  events : Multiset String

section Scanner

variable (unmarshal : List UInt8 → Except String Config)

def ConfigState.resolveFile (c : ConfigState) (content : List UInt8) : Scanned :=
  let sum := md5Sum content
  if sum = c.sum then ⟨c, none, 0⟩
  else
    match unmarshal content with
    | .error err => ⟨c, some err, 0⟩
    | .ok conf =>
        let c := { c with conf := conf, sum := sum }
        ⟨c, none, c.notifyAll⟩

def ConfigState.scan (c : ConfigState) : Finding → Scanned
  | .unopenable err => ⟨c, some ("config opening err: " ++ err), 0⟩
  | .unreadable err => ⟨c, some ("resolve config err: " ++ err), 0⟩
  | .contents content => c.resolveFile unmarshal content

def step (c : ConfigState) (finding : Finding) : ConfigState := (c.scan unmarshal finding).state

/-! What the scanner is for. -/

def accepted : Finding → Option (List UInt8 × Config)
  | .contents content => (unmarshal content).toOption.map fun conf => (content, conf)
  | _ => none

def lastAccepted (findings : List Finding) : Option (List UInt8 × Config) :=
  (findings.filterMap (accepted unmarshal)).getLast?

def published (findings : List Finding) : Config :=
  (lastAccepted unmarshal findings).elim ⟨"", []⟩ Prod.snd

def isNew (last found : Option (List UInt8 × Config)) : Bool :=
  found.any fun entry => last.map Prod.fst ≠ some entry.1

def changes (findings : List Finding) (finding : Finding) : Bool :=
  isNew (lastAccepted unmarshal findings) (accepted unmarshal finding)

/-- The state after the last accepted contents. -/
structure Follows (subscribers : Finset String) (last : Option (List UInt8 × Config))
    (c : ConfigState) : Prop where
  conf : c.conf = last.elim ⟨"", []⟩ Prod.snd
  sum : c.sum = last.elim [] fun entry => md5Sum entry.1
  parses : ∀ entry ∈ last, unmarshal entry.1 = .ok entry.2
  subscribers : c.subscribers = subscribers

theorem md5Sum_inj {left right : List UInt8} : md5Sum left = md5Sum right ↔ left = right :=
  List.append_left_inj md5Empty

theorem md5Sum_ne_nil (content : List UInt8) : md5Sum content ≠ [] := by
  simp [md5Sum, md5Empty]

variable {unmarshal} {subscribers : Finset String}

theorem Follows.sum_eq_iff {last : Option (List UInt8 × Config)} {c : ConfigState}
    (h : Follows unmarshal subscribers last c) (content : List UInt8) :
    md5Sum content = c.sum ↔ last.map Prod.fst = some content := by
  rw [h.sum]
  cases last with
  | none => simp [md5Sum_ne_nil]
  | some entry => simp [md5Sum_inj, eq_comm]

theorem isOk_or_error (result : Except String Config) :
    (∃ conf, result = .ok conf) ∨ ∃ err, result = .error err := by
  cases result with
  | ok conf => exact .inl ⟨conf, rfl⟩
  | error err => exact .inr ⟨err, rfl⟩

theorem Follows.scan {last : Option (List UInt8 × Config)} {c : ConfigState}
    (h : Follows unmarshal subscribers last c) (finding : Finding) :
    Follows unmarshal subscribers ((accepted unmarshal finding).or last)
        (step unmarshal c finding) ∧
      (c.scan unmarshal finding).events =
        if isNew last (accepted unmarshal finding) then subscribers.val else 0 := by
  cases finding with
  | unopenable err => exact ⟨h, rfl⟩
  | unreadable err => exact ⟨h, rfl⟩
  | contents content =>
      simp only [step, ConfigState.scan, ConfigState.resolveFile, accepted]
      by_cases hsame : md5Sum content = c.sum
      · have hlast := (h.sum_eq_iff content).mp hsame
        obtain ⟨entry, hentry, rfl⟩ := Option.map_eq_some_iff.mp hlast
        have hparses := h.parses entry hentry
        simp only [hsame, if_true, hparses, Except.toOption, Option.map_some, Option.some_or]
        rw [hentry] at h
        exact ⟨h, by simp [isNew, hentry]⟩
      · have hlast := mt (h.sum_eq_iff content).mpr hsame
        simp only [hsame, if_false]
        rcases isOk_or_error (unmarshal content) with ⟨conf, hparse⟩ | ⟨err, hparse⟩
        · simp only [hparse, Except.toOption, Option.map_some, Option.some_or]
          refine ⟨⟨rfl, rfl, ?_, h.subscribers⟩, ?_⟩
          · intro entry hentry
            rw [← Option.mem_some.mp hentry]
            exact hparse
          · simp [isNew, hlast, ConfigState.notifyAll, h.subscribers]
        · simp only [hparse, Except.toOption, Option.map_none, Option.none_or]
          exact ⟨h, rfl⟩

theorem lastAccepted_append (findings : List Finding) (finding : Finding) :
    lastAccepted unmarshal (findings ++ [finding]) =
      (accepted unmarshal finding).or (lastAccepted unmarshal findings) := by
  unfold lastAccepted
  cases hfound : accepted unmarshal finding with
  | none => simp [List.filterMap_append, hfound]
  | some entry => simp [List.filterMap_append, hfound]

theorem start_follows : Follows unmarshal subscribers none (ConfigState.start subscribers) :=
  ⟨rfl, rfl, by simp, rfl⟩

theorem scans_follow (findings : List Finding) :
    Follows unmarshal subscribers (lastAccepted unmarshal findings)
      (final (step unmarshal) (ConfigState.start subscribers) findings) := by
  induction findings using List.reverseRecOn with
  | nil => exact start_follows
  | append_singleton findings finding ih =>
      rw [lastAccepted_append, final, List.foldl_append]
      exact (ih.scan finding).1

theorem lastAccepted_bad {bad : List Finding}
    (hbad : ∀ finding ∈ bad, accepted unmarshal finding = none) (findings : List Finding) :
    lastAccepted unmarshal (findings ++ bad) = lastAccepted unmarshal findings := by
  have hnil : bad.filterMap (accepted unmarshal) = [] := List.filterMap_eq_nil_iff.mpr hbad
  simp [lastAccepted, List.filterMap_append, hnil]

/-- After every scan of any run the last contents that parsed are published and
each subscriber got one event if they are new; bad edits that are reverted pass
unnoticed. -/
theorem scans_publish (unmarshal : List UInt8 → Except String Config)
    (subscribers : Finset String) (findings : List Finding) (finding : Finding) :
    let before := final (step unmarshal) (ConfigState.start subscribers) findings
    ((before.scan unmarshal finding).state.conf =
        published unmarshal (findings ++ [finding]) ∧
      (before.scan unmarshal finding).events =
        if changes unmarshal findings finding then subscribers.val else 0) ∧
      ∀ content bad, (lastAccepted unmarshal findings).map Prod.fst = some content →
        (∀ found ∈ bad, accepted unmarshal found = none) →
          let edited := final (step unmarshal) before bad
          edited.conf = before.conf ∧
            (edited.scan unmarshal (.contents content)).state.conf = before.conf ∧
            (edited.scan unmarshal (.contents content)).events = 0 := by
  intro before
  have hbefore : Follows unmarshal subscribers (lastAccepted unmarshal findings) before :=
    scans_follow findings
  have hscan := hbefore.scan finding
  refine ⟨⟨?_, hscan.2⟩, ?_⟩
  · rw [published, lastAccepted_append]
    exact hscan.1.conf
  · intro content bad hlast hbad edited
    have hedited : Follows unmarshal subscribers (lastAccepted unmarshal findings) edited := by
      have hrun : edited = final (step unmarshal) (ConfigState.start subscribers)
          (findings ++ bad) := (List.foldl_append ..).symm
      rw [hrun, ← lastAccepted_bad hbad]
      exact scans_follow (findings ++ bad)
    have hsame := (hedited.sum_eq_iff content).mpr hlast
    have hconf : edited.conf = before.conf := hedited.conf.trans hbefore.conf.symm
    simp only [ConfigState.scan, ConfigState.resolveFile, hsame, if_true]
    exact ⟨hconf, hconf, trivial⟩

end Scanner

def onlyOne (content : List UInt8) : Except String Config :=
  if content = [1] then .ok ⟨"/dp", []⟩ else .error "yaml: unknown"

theorem scans_publish_reverted :
    ((final (step onlyOne) (ConfigState.start {"pluginRegistry"})
      [.contents [1], .contents [2]]).scan onlyOne (.contents [1])).events = 0 :=
  ((scans_publish onlyOne {"pluginRegistry"} [.contents [1]] (.contents [2])).2 [1]
    [.contents [2]] (by decide) (by decide)).2.2

end VirtualSfc.Plugin.ConfigWatch
