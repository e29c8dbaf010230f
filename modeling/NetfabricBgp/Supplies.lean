import NetfabricBgp.Channels
import NetfabricBgp.Ribs

/-!
What a program is handed by its libraries while it runs: fresh identifiers, channels, and
RIBs behind locks. Channels and RIBs are known by numbers, as their handles are shared, and
the identifiers come from a sequence that is a parameter.
-/
namespace NetfabricBgp.Supplies

open RouterMasks Ribs Channels

abbrev RibId := ℕ

/-- The channels and RIBs made so far, and the number of identifiers drawn. -/
structure Supply where
  links : Links
  nextChannel : ℕ
  ribs : RibId → BgpRib
  nextRib : ℕ
  drawn : ℕ

namespace Supply

/-- Nothing has been handed out. -/
def initial : Supply := ⟨fun _ => Channel.create 0, 0, fun _ => BgpRib.new, 0, 0⟩

/-- `Uuid::new_v4` -/
def newV4 (uuids : ℕ → Uuid) (self : Supply) : Uuid × Supply :=
  (uuids self.drawn, { self with drawn := self.drawn + 1 })

/-- `sync_channel`: both ends are handles of the new channel. -/
def syncChannel (self : Supply) (bound : ℕ) : ChannelId × Supply :=
  (self.nextChannel, { self with
    links := Function.update self.links self.nextChannel (Channel.create bound)
    nextChannel := self.nextChannel + 1 })

/-- `Arc::new(Mutex::new(rib))` -/
def newRib (self : Supply) (rib : BgpRib) : RibId × Supply :=
  (self.nextRib, { self with
    ribs := Function.update self.ribs self.nextRib rib
    nextRib := self.nextRib + 1 })

end Supply

end NetfabricBgp.Supplies
