import Criteria.Text.Letter

/-!
# Capital letters

The code point that the upper-case form of a character begins with.  For most letters it is the
least of the code points that are lowered to the letter.  The table holds the characters for which
it is another one: letters with a second spelling, ligatures and letters with marks, whose
upper-case form is several characters, and capitals that are lowered to a letter with another
capital.
-/

namespace Criteria.Text

/-- Runs of characters that are raised by a distance of their own. -/
def capitalRuns : List CaseRun :=
  [⟨0xb5, 0xb5, 1, 743⟩, ⟨0xdf, 0xdf, 1, -140⟩, ⟨0x130, 0x130, 1, 0⟩, ⟨0x131, 0x131, 1, -232⟩,
   ⟨0x149, 0x149, 1, 371⟩, ⟨0x17f, 0x17f, 1, -300⟩, ⟨0x1f0, 0x1f0, 1, -422⟩,
   ⟨0x345, 0x345, 1, 84⟩, ⟨0x390, 0x390, 1, 9⟩, ⟨0x3b0, 0x3b0, 1, -11⟩, ⟨0x3c2, 0x3c2, 1, -31⟩,
   ⟨0x3d0, 0x3d0, 1, -62⟩, ⟨0x3d1, 0x3d1, 1, -57⟩, ⟨0x3d5, 0x3d5, 1, -47⟩, ⟨0x3d6, 0x3d6, 1, -54⟩,
   ⟨0x3f0, 0x3f0, 1, -86⟩, ⟨0x3f1, 0x3f1, 1, -80⟩, ⟨0x3f4, 0x3f4, 1, 0⟩, ⟨0x3f5, 0x3f5, 1, -96⟩,
   ⟨0x587, 0x587, 1, -82⟩, ⟨0x1c80, 0x1c80, 1, -6254⟩, ⟨0x1c81, 0x1c81, 1, -6253⟩,
   ⟨0x1c82, 0x1c82, 1, -6244⟩, ⟨0x1c83, 0x1c84, 1, -6242⟩, ⟨0x1c85, 0x1c85, 1, -6243⟩,
   ⟨0x1c86, 0x1c86, 1, -6236⟩, ⟨0x1c87, 0x1c87, 1, -6181⟩, ⟨0x1c88, 0x1c88, 1, 35266⟩,
   ⟨0x1e96, 0x1e96, 1, -7758⟩, ⟨0x1e97, 0x1e97, 1, -7747⟩, ⟨0x1e98, 0x1e98, 1, -7745⟩,
   ⟨0x1e99, 0x1e99, 1, -7744⟩, ⟨0x1e9a, 0x1e9a, 1, -7769⟩, ⟨0x1e9b, 0x1e9b, 1, -59⟩,
   ⟨0x1f50, 0x1f50, 1, -7083⟩, ⟨0x1f52, 0x1f52, 1, -7085⟩, ⟨0x1f54, 0x1f54, 1, -7087⟩,
   ⟨0x1f56, 0x1f56, 1, -7089⟩, ⟨0x1f80, 0x1f87, 1, -120⟩, ⟨0x1f88, 0x1f8f, 1, -128⟩,
   ⟨0x1f90, 0x1f97, 1, -104⟩, ⟨0x1f98, 0x1f9f, 1, -112⟩, ⟨0x1fa0, 0x1fa7, 1, -56⟩,
   ⟨0x1fa8, 0x1faf, 1, -64⟩, ⟨0x1fb2, 0x1fb2, 1, 8⟩, ⟨0x1fb3, 0x1fb3, 1, -7202⟩,
   ⟨0x1fb4, 0x1fb4, 1, -7214⟩, ⟨0x1fb6, 0x1fb6, 1, -7205⟩, ⟨0x1fb7, 0x1fb7, 1, -7206⟩,
   ⟨0x1fbc, 0x1fbc, 1, -7211⟩, ⟨0x1fbe, 0x1fbe, 1, -7205⟩, ⟨0x1fc2, 0x1fc2, 1, 8⟩,
   ⟨0x1fc3, 0x1fc3, 1, -7212⟩, ⟨0x1fc4, 0x1fc4, 1, -7227⟩, ⟨0x1fc6, 0x1fc6, 1, -7215⟩,
   ⟨0x1fc7, 0x1fc7, 1, -7216⟩, ⟨0x1fcc, 0x1fcc, 1, -7221⟩, ⟨0x1fd2, 0x1fd2, 1, -7225⟩,
   ⟨0x1fd3, 0x1fd3, 1, -7226⟩, ⟨0x1fd6, 0x1fd6, 1, -7229⟩, ⟨0x1fd7, 0x1fd7, 1, -7230⟩,
   ⟨0x1fe2, 0x1fe2, 1, -7229⟩, ⟨0x1fe3, 0x1fe3, 1, -7230⟩, ⟨0x1fe4, 0x1fe4, 1, -7235⟩,
   ⟨0x1fe6, 0x1fe6, 1, -7233⟩, ⟨0x1fe7, 0x1fe7, 1, -7234⟩, ⟨0x1ff2, 0x1ff2, 1, 8⟩,
   ⟨0x1ff3, 0x1ff3, 1, -7242⟩, ⟨0x1ff4, 0x1ff4, 1, -7269⟩, ⟨0x1ff6, 0x1ff6, 1, -7245⟩,
   ⟨0x1ff7, 0x1ff7, 1, -7246⟩, ⟨0x1ffc, 0x1ffc, 1, -7251⟩, ⟨0x2126, 0x2126, 1, 0⟩,
   ⟨0x212a, 0x212b, 1, 0⟩, ⟨0xfb00, 0xfb00, 1, -64186⟩, ⟨0xfb01, 0xfb01, 1, -64187⟩,
   ⟨0xfb02, 0xfb02, 1, -64188⟩, ⟨0xfb03, 0xfb03, 1, -64189⟩, ⟨0xfb04, 0xfb04, 1, -64190⟩,
   ⟨0xfb05, 0xfb05, 1, -64178⟩, ⟨0xfb06, 0xfb06, 1, -64179⟩, ⟨0xfb13, 0xfb13, 1, -62927⟩,
   ⟨0xfb14, 0xfb14, 1, -62928⟩, ⟨0xfb15, 0xfb15, 1, -62929⟩, ⟨0xfb16, 0xfb16, 1, -62920⟩,
   ⟨0xfb17, 0xfb17, 1, -62931⟩]

/-- The code point that the upper-case form of a code point begins with. -/
def capitalCode (n : Nat) : Nat :=
  match capitalRuns.find? (·.contains n) with
  | some r => (n + r.shift).toNat
  | none => ((raisedCodes (lowerCode n)).filter fun m ↦ m ≠ lowerCode n).min?.getD n

end Criteria.Text
