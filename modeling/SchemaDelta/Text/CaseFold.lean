import SchemaDelta.Text.CharClass

/-!
# Case folding

Simple case folding, as it is in Unicode 16, takes each character to one
representative of those that differ from it by case only.  The table lists the
runs of characters that do not stand for themselves: the first and the last one,
the representative of the first one, and the step from one to the next.
-/

namespace SchemaDelta.Text

abbrev FoldRun := Nat × Nat × Nat × Nat

def foldRuns : List FoldRun :=
  [(0x41, 0x5a, 0x61, 1), (0xb5, 0xb5, 0x3bc, 1), (0xc0, 0xd6, 0xe0, 1), (0xd8, 0xde, 0xf8, 1),
   (0x100, 0x12e, 0x101, 2), (0x132, 0x136, 0x133, 2), (0x139, 0x147, 0x13a, 2),
   (0x14a, 0x176, 0x14b, 2), (0x178, 0x178, 0xff, 1), (0x179, 0x17d, 0x17a, 2),
   (0x17f, 0x17f, 0x73, 1), (0x181, 0x181, 0x253, 1), (0x182, 0x184, 0x183, 2),
   (0x186, 0x186, 0x254, 1), (0x187, 0x187, 0x188, 1), (0x189, 0x18a, 0x256, 1),
   (0x18b, 0x18b, 0x18c, 1), (0x18e, 0x18e, 0x1dd, 1), (0x18f, 0x18f, 0x259, 1),
   (0x190, 0x190, 0x25b, 1), (0x191, 0x191, 0x192, 1), (0x193, 0x193, 0x260, 1),
   (0x194, 0x194, 0x263, 1), (0x196, 0x196, 0x269, 1), (0x197, 0x197, 0x268, 1),
   (0x198, 0x198, 0x199, 1), (0x19c, 0x19c, 0x26f, 1), (0x19d, 0x19d, 0x272, 1),
   (0x19f, 0x19f, 0x275, 1), (0x1a0, 0x1a4, 0x1a1, 2), (0x1a6, 0x1a6, 0x280, 1),
   (0x1a7, 0x1a7, 0x1a8, 1), (0x1a9, 0x1a9, 0x283, 1), (0x1ac, 0x1ac, 0x1ad, 1),
   (0x1ae, 0x1ae, 0x288, 1), (0x1af, 0x1af, 0x1b0, 1), (0x1b1, 0x1b2, 0x28a, 1),
   (0x1b3, 0x1b5, 0x1b4, 2), (0x1b7, 0x1b7, 0x292, 1), (0x1b8, 0x1b8, 0x1b9, 1),
   (0x1bc, 0x1bc, 0x1bd, 1), (0x1c4, 0x1c4, 0x1c6, 1), (0x1c5, 0x1c5, 0x1c6, 1),
   (0x1c7, 0x1c7, 0x1c9, 1), (0x1c8, 0x1c8, 0x1c9, 1), (0x1ca, 0x1ca, 0x1cc, 1),
   (0x1cb, 0x1db, 0x1cc, 2), (0x1de, 0x1ee, 0x1df, 2), (0x1f1, 0x1f1, 0x1f3, 1),
   (0x1f2, 0x1f4, 0x1f3, 2), (0x1f6, 0x1f6, 0x195, 1), (0x1f7, 0x1f7, 0x1bf, 1),
   (0x1f8, 0x21e, 0x1f9, 2), (0x220, 0x220, 0x19e, 1), (0x222, 0x232, 0x223, 2),
   (0x23a, 0x23a, 0x2c65, 1), (0x23b, 0x23b, 0x23c, 1), (0x23d, 0x23d, 0x19a, 1),
   (0x23e, 0x23e, 0x2c66, 1), (0x241, 0x241, 0x242, 1), (0x243, 0x243, 0x180, 1),
   (0x244, 0x244, 0x289, 1), (0x245, 0x245, 0x28c, 1), (0x246, 0x24e, 0x247, 2),
   (0x345, 0x345, 0x3b9, 1), (0x370, 0x372, 0x371, 2), (0x376, 0x376, 0x377, 1),
   (0x37f, 0x37f, 0x3f3, 1), (0x386, 0x386, 0x3ac, 1), (0x388, 0x38a, 0x3ad, 1),
   (0x38c, 0x38c, 0x3cc, 1), (0x38e, 0x38f, 0x3cd, 1), (0x391, 0x3a1, 0x3b1, 1),
   (0x3a3, 0x3ab, 0x3c3, 1), (0x3c2, 0x3c2, 0x3c3, 1), (0x3cf, 0x3cf, 0x3d7, 1),
   (0x3d0, 0x3d0, 0x3b2, 1), (0x3d1, 0x3d1, 0x3b8, 1), (0x3d5, 0x3d5, 0x3c6, 1),
   (0x3d6, 0x3d6, 0x3c0, 1), (0x3d8, 0x3ee, 0x3d9, 2), (0x3f0, 0x3f0, 0x3ba, 1),
   (0x3f1, 0x3f1, 0x3c1, 1), (0x3f4, 0x3f4, 0x3b8, 1), (0x3f5, 0x3f5, 0x3b5, 1),
   (0x3f7, 0x3f7, 0x3f8, 1), (0x3f9, 0x3f9, 0x3f2, 1), (0x3fa, 0x3fa, 0x3fb, 1),
   (0x3fd, 0x3ff, 0x37b, 1), (0x400, 0x40f, 0x450, 1), (0x410, 0x42f, 0x430, 1),
   (0x460, 0x480, 0x461, 2), (0x48a, 0x4be, 0x48b, 2), (0x4c0, 0x4c0, 0x4cf, 1),
   (0x4c1, 0x4cd, 0x4c2, 2), (0x4d0, 0x52e, 0x4d1, 2), (0x531, 0x556, 0x561, 1),
   (0x10a0, 0x10c5, 0x2d00, 1), (0x10c7, 0x10c7, 0x2d27, 1), (0x10cd, 0x10cd, 0x2d2d, 1),
   (0x13f8, 0x13fd, 0x13f0, 1), (0x1c80, 0x1c80, 0x432, 1), (0x1c81, 0x1c81, 0x434, 1),
   (0x1c82, 0x1c82, 0x43e, 1), (0x1c83, 0x1c84, 0x441, 1), (0x1c85, 0x1c85, 0x442, 1),
   (0x1c86, 0x1c86, 0x44a, 1), (0x1c87, 0x1c87, 0x463, 1), (0x1c88, 0x1c88, 0xa64b, 1),
   (0x1c89, 0x1c89, 0x1c8a, 1), (0x1c90, 0x1cba, 0x10d0, 1), (0x1cbd, 0x1cbf, 0x10fd, 1),
   (0x1e00, 0x1e94, 0x1e01, 2), (0x1e9b, 0x1e9b, 0x1e61, 1), (0x1e9e, 0x1e9e, 0xdf, 1),
   (0x1ea0, 0x1efe, 0x1ea1, 2), (0x1f08, 0x1f0f, 0x1f00, 1), (0x1f18, 0x1f1d, 0x1f10, 1),
   (0x1f28, 0x1f2f, 0x1f20, 1), (0x1f38, 0x1f3f, 0x1f30, 1), (0x1f48, 0x1f4d, 0x1f40, 1),
   (0x1f59, 0x1f5f, 0x1f51, 2), (0x1f68, 0x1f6f, 0x1f60, 1), (0x1f88, 0x1f8f, 0x1f80, 1),
   (0x1f98, 0x1f9f, 0x1f90, 1), (0x1fa8, 0x1faf, 0x1fa0, 1), (0x1fb8, 0x1fb9, 0x1fb0, 1),
   (0x1fba, 0x1fbb, 0x1f70, 1), (0x1fbc, 0x1fbc, 0x1fb3, 1), (0x1fbe, 0x1fbe, 0x3b9, 1),
   (0x1fc8, 0x1fcb, 0x1f72, 1), (0x1fcc, 0x1fcc, 0x1fc3, 1), (0x1fd3, 0x1fd3, 0x390, 1),
   (0x1fd8, 0x1fd9, 0x1fd0, 1), (0x1fda, 0x1fdb, 0x1f76, 1), (0x1fe3, 0x1fe3, 0x3b0, 1),
   (0x1fe8, 0x1fe9, 0x1fe0, 1), (0x1fea, 0x1feb, 0x1f7a, 1), (0x1fec, 0x1fec, 0x1fe5, 1),
   (0x1ff8, 0x1ff9, 0x1f78, 1), (0x1ffa, 0x1ffb, 0x1f7c, 1), (0x1ffc, 0x1ffc, 0x1ff3, 1),
   (0x2126, 0x2126, 0x3c9, 1), (0x212a, 0x212a, 0x6b, 1), (0x212b, 0x212b, 0xe5, 1),
   (0x2132, 0x2132, 0x214e, 1), (0x2160, 0x216f, 0x2170, 1), (0x2183, 0x2183, 0x2184, 1),
   (0x24b6, 0x24cf, 0x24d0, 1), (0x2c00, 0x2c2f, 0x2c30, 1), (0x2c60, 0x2c60, 0x2c61, 1),
   (0x2c62, 0x2c62, 0x26b, 1), (0x2c63, 0x2c63, 0x1d7d, 1), (0x2c64, 0x2c64, 0x27d, 1),
   (0x2c67, 0x2c6b, 0x2c68, 2), (0x2c6d, 0x2c6d, 0x251, 1), (0x2c6e, 0x2c6e, 0x271, 1),
   (0x2c6f, 0x2c6f, 0x250, 1), (0x2c70, 0x2c70, 0x252, 1), (0x2c72, 0x2c72, 0x2c73, 1),
   (0x2c75, 0x2c75, 0x2c76, 1), (0x2c7e, 0x2c7f, 0x23f, 1), (0x2c80, 0x2ce2, 0x2c81, 2),
   (0x2ceb, 0x2ced, 0x2cec, 2), (0x2cf2, 0x2cf2, 0x2cf3, 1), (0xa640, 0xa66c, 0xa641, 2),
   (0xa680, 0xa69a, 0xa681, 2), (0xa722, 0xa72e, 0xa723, 2), (0xa732, 0xa76e, 0xa733, 2),
   (0xa779, 0xa77b, 0xa77a, 2), (0xa77d, 0xa77d, 0x1d79, 1), (0xa77e, 0xa786, 0xa77f, 2),
   (0xa78b, 0xa78b, 0xa78c, 1), (0xa78d, 0xa78d, 0x265, 1), (0xa790, 0xa792, 0xa791, 2),
   (0xa796, 0xa7a8, 0xa797, 2), (0xa7aa, 0xa7aa, 0x266, 1), (0xa7ab, 0xa7ab, 0x25c, 1),
   (0xa7ac, 0xa7ac, 0x261, 1), (0xa7ad, 0xa7ad, 0x26c, 1), (0xa7ae, 0xa7ae, 0x26a, 1),
   (0xa7b0, 0xa7b0, 0x29e, 1), (0xa7b1, 0xa7b1, 0x287, 1), (0xa7b2, 0xa7b2, 0x29d, 1),
   (0xa7b3, 0xa7b3, 0xab53, 1), (0xa7b4, 0xa7c2, 0xa7b5, 2), (0xa7c4, 0xa7c4, 0xa794, 1),
   (0xa7c5, 0xa7c5, 0x282, 1), (0xa7c6, 0xa7c6, 0x1d8e, 1), (0xa7c7, 0xa7c9, 0xa7c8, 2),
   (0xa7cb, 0xa7cb, 0x264, 1), (0xa7cc, 0xa7cc, 0xa7cd, 1), (0xa7d0, 0xa7d0, 0xa7d1, 1),
   (0xa7d6, 0xa7da, 0xa7d7, 2), (0xa7dc, 0xa7dc, 0x19b, 1), (0xa7f5, 0xa7f5, 0xa7f6, 1),
   (0xab70, 0xabbf, 0x13a0, 1), (0xfb05, 0xfb05, 0xfb06, 1), (0xff21, 0xff3a, 0xff41, 1),
   (0x10400, 0x10427, 0x10428, 1), (0x104b0, 0x104d3, 0x104d8, 1), (0x10570, 0x1057a, 0x10597, 1),
   (0x1057c, 0x1058a, 0x105a3, 1), (0x1058c, 0x10592, 0x105b3, 1), (0x10594, 0x10595, 0x105bb, 1),
   (0x10c80, 0x10cb2, 0x10cc0, 1), (0x10d50, 0x10d65, 0x10d70, 1), (0x118a0, 0x118bf, 0x118c0, 1),
   (0x16e40, 0x16e5f, 0x16e60, 1), (0x1e900, 0x1e921, 0x1e922, 1)]

/-- The members of a run with their representatives. -/
def FoldRun.pairs : FoldRun → List (Nat × Nat)
  | (first, last, representative, step) =>
      (List.range ((last - first) / step + 1)).map fun i =>
        (first + step * i, representative + step * i)

/-- All characters that do not stand for themselves, with their representatives. -/
def foldPairs : List (Nat × Nat) :=
  foldRuns.flatMap FoldRun.pairs

/-- The set with everything that differs from a member by case only. -/
def CharRanges.closeCase (set : CharRanges) : CharRanges :=
  let representatives := foldPairs.filterMap fun (member, representative) =>
    if set.hasPoint member || set.hasPoint representative then some representative else none
  let members := foldPairs.filterMap fun (member, representative) =>
    if representatives.contains representative then some member else none
  (set ++ CharRanges.ofPoints (representatives ++ members)).normal

end SchemaDelta.Text
