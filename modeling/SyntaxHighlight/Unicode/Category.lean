import SyntaxHighlight.Unicode.SortedTable

/-!
The general category of every code point. Neighbouring code points of one category form a run;
the long stretches where capital and small letters alternate are one run each.
-/
namespace SyntaxHighlight.Unicode

/-- The two-letter classes of the Unicode standard. -/
inductive GeneralCategory where
  | lu | ll | lt | lm | lo
  | mn | mc | me
  | nd | nl | no
  | pc | pd | ps | pe | pi | pf | po
  | sm | sc | sk | so
  | zs | zl | zp
  | cc | cf | cs | co | cn
deriving DecidableEq, Repr, Inhabited

/-- What a run of code points holds: one category, or capital and small letters by turns,
a capital first. -/
inductive CategoryRun where
  | one (category : GeneralCategory)
  | paired
deriving DecidableEq, Repr, Inhabited

private def categoryRuns0 : Array (Nat × CategoryRun) := #[
  (0x0, .one .cc), (0x20, .one .zs), (0x21, .one .po), (0x24, .one .sc), (0x25, .one .po),
  (0x28, .one .ps), (0x29, .one .pe), (0x2a, .one .po), (0x2b, .one .sm), (0x2c, .one .po),
  (0x2d, .one .pd), (0x2e, .one .po), (0x30, .one .nd), (0x3a, .one .po), (0x3c, .one .sm),
  (0x3f, .one .po), (0x41, .one .lu), (0x5b, .one .ps), (0x5c, .one .po), (0x5d, .one .pe),
  (0x5e, .one .sk), (0x5f, .one .pc), (0x60, .one .sk), (0x61, .one .ll), (0x7b, .one .ps),
  (0x7c, .one .sm), (0x7d, .one .pe), (0x7e, .one .sm), (0x7f, .one .cc), (0xa0, .one .zs),
  (0xa1, .one .po), (0xa2, .one .sc), (0xa6, .one .so), (0xa7, .one .po), (0xa8, .one .sk),
  (0xa9, .one .so), (0xaa, .one .lo), (0xab, .one .pi), (0xac, .one .sm), (0xad, .one .cf),
  (0xae, .one .so), (0xaf, .one .sk), (0xb0, .one .so), (0xb1, .one .sm), (0xb2, .one .no),
  (0xb4, .one .sk), (0xb5, .one .ll), (0xb6, .one .po), (0xb8, .one .sk), (0xb9, .one .no),
  (0xba, .one .lo), (0xbb, .one .pf), (0xbc, .one .no), (0xbf, .one .po), (0xc0, .one .lu),
  (0xd7, .one .sm), (0xd8, .one .lu), (0xdf, .one .ll), (0xf7, .one .sm), (0xf8, .one .ll),
  (0x100, .paired), (0x136, .one .lu), (0x137, .one .ll), (0x139, .paired), (0x147, .one .lu),
  (0x148, .one .ll), (0x14a, .paired), (0x178, .one .lu), (0x17a, .one .ll), (0x17b, .one .lu),
  (0x17c, .one .ll), (0x17d, .one .lu), (0x17e, .one .ll), (0x181, .one .lu), (0x183, .one .ll),
  (0x184, .one .lu), (0x185, .one .ll), (0x186, .one .lu), (0x188, .one .ll), (0x189, .one .lu),
  (0x18c, .one .ll), (0x18e, .one .lu), (0x192, .one .ll), (0x193, .one .lu), (0x195, .one .ll),
  (0x196, .one .lu), (0x199, .one .ll), (0x19c, .one .lu), (0x19e, .one .ll), (0x19f, .one .lu),
  (0x1a1, .one .ll), (0x1a2, .paired), (0x1a6, .one .lu), (0x1a8, .one .ll), (0x1a9, .one .lu),
  (0x1aa, .one .ll), (0x1ac, .one .lu), (0x1ad, .one .ll), (0x1ae, .one .lu), (0x1b0, .one .ll),
  (0x1b1, .one .lu), (0x1b4, .one .ll), (0x1b5, .one .lu), (0x1b6, .one .ll), (0x1b7, .one .lu),
  (0x1b9, .one .ll), (0x1bb, .one .lo), (0x1bc, .one .lu), (0x1bd, .one .ll), (0x1c0, .one .lo),
  (0x1c4, .one .lu), (0x1c5, .one .lt), (0x1c6, .one .ll), (0x1c7, .one .lu), (0x1c8, .one .lt),
  (0x1c9, .one .ll), (0x1ca, .one .lu), (0x1cb, .one .lt), (0x1cc, .one .ll), (0x1cd, .paired),
  (0x1db, .one .lu), (0x1dc, .one .ll), (0x1de, .paired), (0x1ee, .one .lu), (0x1ef, .one .ll),
  (0x1f1, .one .lu), (0x1f2, .one .lt), (0x1f3, .one .ll), (0x1f4, .one .lu), (0x1f5, .one .ll),
  (0x1f6, .one .lu), (0x1f9, .one .ll), (0x1fa, .paired), (0x232, .one .lu), (0x233, .one .ll),
  (0x23a, .one .lu), (0x23c, .one .ll), (0x23d, .one .lu), (0x23f, .one .ll), (0x241, .one .lu),
  (0x242, .one .ll), (0x243, .one .lu), (0x247, .one .ll), (0x248, .paired), (0x24e, .one .lu),
  (0x24f, .one .ll), (0x294, .one .lo), (0x295, .one .ll), (0x2b0, .one .lm), (0x2c2, .one .sk),
  (0x2c6, .one .lm), (0x2d2, .one .sk), (0x2e0, .one .lm), (0x2e5, .one .sk), (0x2ec, .one .lm),
  (0x2ed, .one .sk), (0x2ee, .one .lm), (0x2ef, .one .sk), (0x300, .one .mn), (0x370, .paired),
  (0x374, .one .lm), (0x375, .one .sk), (0x376, .one .lu), (0x377, .one .ll), (0x378, .one .cn),
  (0x37a, .one .lm), (0x37b, .one .ll), (0x37e, .one .po), (0x37f, .one .lu), (0x380, .one .cn),
  (0x384, .one .sk), (0x386, .one .lu), (0x387, .one .po), (0x388, .one .lu), (0x38b, .one .cn),
  (0x38c, .one .lu), (0x38d, .one .cn), (0x38e, .one .lu), (0x390, .one .ll), (0x391, .one .lu),
  (0x3a2, .one .cn), (0x3a3, .one .lu), (0x3ac, .one .ll), (0x3cf, .one .lu), (0x3d0, .one .ll),
  (0x3d2, .one .lu), (0x3d5, .one .ll), (0x3d8, .paired), (0x3ee, .one .lu), (0x3ef, .one .ll),
  (0x3f4, .one .lu), (0x3f5, .one .ll), (0x3f6, .one .sm), (0x3f7, .one .lu), (0x3f8, .one .ll),
  (0x3f9, .one .lu), (0x3fb, .one .ll), (0x3fd, .one .lu), (0x430, .one .ll), (0x460, .paired),
  (0x482, .one .so), (0x483, .one .mn), (0x488, .one .me), (0x48a, .paired), (0x4c0, .one .lu),
  (0x4c2, .one .ll), (0x4c3, .paired), (0x4cd, .one .lu), (0x4ce, .one .ll), (0x4d0, .paired),
  (0x530, .one .cn), (0x531, .one .lu), (0x557, .one .cn), (0x559, .one .lm), (0x55a, .one .po),
  (0x560, .one .ll), (0x589, .one .po), (0x58a, .one .pd), (0x58b, .one .cn), (0x58d, .one .so),
  (0x58f, .one .sc), (0x590, .one .cn), (0x591, .one .mn), (0x5be, .one .pd), (0x5bf, .one .mn),
  (0x5c0, .one .po), (0x5c1, .one .mn), (0x5c3, .one .po), (0x5c4, .one .mn), (0x5c6, .one .po),
  (0x5c7, .one .mn), (0x5c8, .one .cn), (0x5d0, .one .lo), (0x5eb, .one .cn), (0x5ef, .one .lo),
  (0x5f3, .one .po), (0x5f5, .one .cn), (0x600, .one .cf), (0x606, .one .sm), (0x609, .one .po),
  (0x60b, .one .sc), (0x60c, .one .po), (0x60e, .one .so), (0x610, .one .mn), (0x61b, .one .po),
  (0x61c, .one .cf), (0x61d, .one .po), (0x620, .one .lo), (0x640, .one .lm), (0x641, .one .lo)]

private def categoryRuns1 : Array (Nat × CategoryRun) := #[
  (0x64b, .one .mn), (0x660, .one .nd), (0x66a, .one .po), (0x66e, .one .lo), (0x670, .one .mn),
  (0x671, .one .lo), (0x6d4, .one .po), (0x6d5, .one .lo), (0x6d6, .one .mn), (0x6dd, .one .cf),
  (0x6de, .one .so), (0x6df, .one .mn), (0x6e5, .one .lm), (0x6e7, .one .mn), (0x6e9, .one .so),
  (0x6ea, .one .mn), (0x6ee, .one .lo), (0x6f0, .one .nd), (0x6fa, .one .lo), (0x6fd, .one .so),
  (0x6ff, .one .lo), (0x700, .one .po), (0x70e, .one .cn), (0x70f, .one .cf), (0x710, .one .lo),
  (0x711, .one .mn), (0x712, .one .lo), (0x730, .one .mn), (0x74b, .one .cn), (0x74d, .one .lo),
  (0x7a6, .one .mn), (0x7b1, .one .lo), (0x7b2, .one .cn), (0x7c0, .one .nd), (0x7ca, .one .lo),
  (0x7eb, .one .mn), (0x7f4, .one .lm), (0x7f6, .one .so), (0x7f7, .one .po), (0x7fa, .one .lm),
  (0x7fb, .one .cn), (0x7fd, .one .mn), (0x7fe, .one .sc), (0x800, .one .lo), (0x816, .one .mn),
  (0x81a, .one .lm), (0x81b, .one .mn), (0x824, .one .lm), (0x825, .one .mn), (0x828, .one .lm),
  (0x829, .one .mn), (0x82e, .one .cn), (0x830, .one .po), (0x83f, .one .cn), (0x840, .one .lo),
  (0x859, .one .mn), (0x85c, .one .cn), (0x85e, .one .po), (0x85f, .one .cn), (0x860, .one .lo),
  (0x86b, .one .cn), (0x870, .one .lo), (0x888, .one .sk), (0x889, .one .lo), (0x88f, .one .cn),
  (0x890, .one .cf), (0x892, .one .cn), (0x898, .one .mn), (0x8a0, .one .lo), (0x8c9, .one .lm),
  (0x8ca, .one .mn), (0x8e2, .one .cf), (0x8e3, .one .mn), (0x903, .one .mc), (0x904, .one .lo),
  (0x93a, .one .mn), (0x93b, .one .mc), (0x93c, .one .mn), (0x93d, .one .lo), (0x93e, .one .mc),
  (0x941, .one .mn), (0x949, .one .mc), (0x94d, .one .mn), (0x94e, .one .mc), (0x950, .one .lo),
  (0x951, .one .mn), (0x958, .one .lo), (0x962, .one .mn), (0x964, .one .po), (0x966, .one .nd),
  (0x970, .one .po), (0x971, .one .lm), (0x972, .one .lo), (0x981, .one .mn), (0x982, .one .mc),
  (0x984, .one .cn), (0x985, .one .lo), (0x98d, .one .cn), (0x98f, .one .lo), (0x991, .one .cn),
  (0x993, .one .lo), (0x9a9, .one .cn), (0x9aa, .one .lo), (0x9b1, .one .cn), (0x9b2, .one .lo),
  (0x9b3, .one .cn), (0x9b6, .one .lo), (0x9ba, .one .cn), (0x9bc, .one .mn), (0x9bd, .one .lo),
  (0x9be, .one .mc), (0x9c1, .one .mn), (0x9c5, .one .cn), (0x9c7, .one .mc), (0x9c9, .one .cn),
  (0x9cb, .one .mc), (0x9cd, .one .mn), (0x9ce, .one .lo), (0x9cf, .one .cn), (0x9d7, .one .mc),
  (0x9d8, .one .cn), (0x9dc, .one .lo), (0x9de, .one .cn), (0x9df, .one .lo), (0x9e2, .one .mn),
  (0x9e4, .one .cn), (0x9e6, .one .nd), (0x9f0, .one .lo), (0x9f2, .one .sc), (0x9f4, .one .no),
  (0x9fa, .one .so), (0x9fb, .one .sc), (0x9fc, .one .lo), (0x9fd, .one .po), (0x9fe, .one .mn),
  (0x9ff, .one .cn), (0xa01, .one .mn), (0xa03, .one .mc), (0xa04, .one .cn), (0xa05, .one .lo),
  (0xa0b, .one .cn), (0xa0f, .one .lo), (0xa11, .one .cn), (0xa13, .one .lo), (0xa29, .one .cn),
  (0xa2a, .one .lo), (0xa31, .one .cn), (0xa32, .one .lo), (0xa34, .one .cn), (0xa35, .one .lo),
  (0xa37, .one .cn), (0xa38, .one .lo), (0xa3a, .one .cn), (0xa3c, .one .mn), (0xa3d, .one .cn),
  (0xa3e, .one .mc), (0xa41, .one .mn), (0xa43, .one .cn), (0xa47, .one .mn), (0xa49, .one .cn),
  (0xa4b, .one .mn), (0xa4e, .one .cn), (0xa51, .one .mn), (0xa52, .one .cn), (0xa59, .one .lo),
  (0xa5d, .one .cn), (0xa5e, .one .lo), (0xa5f, .one .cn), (0xa66, .one .nd), (0xa70, .one .mn),
  (0xa72, .one .lo), (0xa75, .one .mn), (0xa76, .one .po), (0xa77, .one .cn), (0xa81, .one .mn),
  (0xa83, .one .mc), (0xa84, .one .cn), (0xa85, .one .lo), (0xa8e, .one .cn), (0xa8f, .one .lo),
  (0xa92, .one .cn), (0xa93, .one .lo), (0xaa9, .one .cn), (0xaaa, .one .lo), (0xab1, .one .cn),
  (0xab2, .one .lo), (0xab4, .one .cn), (0xab5, .one .lo), (0xaba, .one .cn), (0xabc, .one .mn),
  (0xabd, .one .lo), (0xabe, .one .mc), (0xac1, .one .mn), (0xac6, .one .cn), (0xac7, .one .mn),
  (0xac9, .one .mc), (0xaca, .one .cn), (0xacb, .one .mc), (0xacd, .one .mn), (0xace, .one .cn),
  (0xad0, .one .lo), (0xad1, .one .cn), (0xae0, .one .lo), (0xae2, .one .mn), (0xae4, .one .cn),
  (0xae6, .one .nd), (0xaf0, .one .po), (0xaf1, .one .sc), (0xaf2, .one .cn), (0xaf9, .one .lo),
  (0xafa, .one .mn), (0xb00, .one .cn), (0xb01, .one .mn), (0xb02, .one .mc), (0xb04, .one .cn),
  (0xb05, .one .lo), (0xb0d, .one .cn), (0xb0f, .one .lo), (0xb11, .one .cn), (0xb13, .one .lo),
  (0xb29, .one .cn), (0xb2a, .one .lo), (0xb31, .one .cn), (0xb32, .one .lo), (0xb34, .one .cn),
  (0xb35, .one .lo), (0xb3a, .one .cn), (0xb3c, .one .mn), (0xb3d, .one .lo), (0xb3e, .one .mc),
  (0xb3f, .one .mn), (0xb40, .one .mc), (0xb41, .one .mn), (0xb45, .one .cn), (0xb47, .one .mc),
  (0xb49, .one .cn), (0xb4b, .one .mc), (0xb4d, .one .mn), (0xb4e, .one .cn), (0xb55, .one .mn),
  (0xb57, .one .mc), (0xb58, .one .cn), (0xb5c, .one .lo), (0xb5e, .one .cn), (0xb5f, .one .lo),
  (0xb62, .one .mn), (0xb64, .one .cn), (0xb66, .one .nd), (0xb70, .one .so), (0xb71, .one .lo)]

private def categoryRuns2 : Array (Nat × CategoryRun) := #[
  (0xb72, .one .no), (0xb78, .one .cn), (0xb82, .one .mn), (0xb83, .one .lo), (0xb84, .one .cn),
  (0xb85, .one .lo), (0xb8b, .one .cn), (0xb8e, .one .lo), (0xb91, .one .cn), (0xb92, .one .lo),
  (0xb96, .one .cn), (0xb99, .one .lo), (0xb9b, .one .cn), (0xb9c, .one .lo), (0xb9d, .one .cn),
  (0xb9e, .one .lo), (0xba0, .one .cn), (0xba3, .one .lo), (0xba5, .one .cn), (0xba8, .one .lo),
  (0xbab, .one .cn), (0xbae, .one .lo), (0xbba, .one .cn), (0xbbe, .one .mc), (0xbc0, .one .mn),
  (0xbc1, .one .mc), (0xbc3, .one .cn), (0xbc6, .one .mc), (0xbc9, .one .cn), (0xbca, .one .mc),
  (0xbcd, .one .mn), (0xbce, .one .cn), (0xbd0, .one .lo), (0xbd1, .one .cn), (0xbd7, .one .mc),
  (0xbd8, .one .cn), (0xbe6, .one .nd), (0xbf0, .one .no), (0xbf3, .one .so), (0xbf9, .one .sc),
  (0xbfa, .one .so), (0xbfb, .one .cn), (0xc00, .one .mn), (0xc01, .one .mc), (0xc04, .one .mn),
  (0xc05, .one .lo), (0xc0d, .one .cn), (0xc0e, .one .lo), (0xc11, .one .cn), (0xc12, .one .lo),
  (0xc29, .one .cn), (0xc2a, .one .lo), (0xc3a, .one .cn), (0xc3c, .one .mn), (0xc3d, .one .lo),
  (0xc3e, .one .mn), (0xc41, .one .mc), (0xc45, .one .cn), (0xc46, .one .mn), (0xc49, .one .cn),
  (0xc4a, .one .mn), (0xc4e, .one .cn), (0xc55, .one .mn), (0xc57, .one .cn), (0xc58, .one .lo),
  (0xc5b, .one .cn), (0xc5d, .one .lo), (0xc5e, .one .cn), (0xc60, .one .lo), (0xc62, .one .mn),
  (0xc64, .one .cn), (0xc66, .one .nd), (0xc70, .one .cn), (0xc77, .one .po), (0xc78, .one .no),
  (0xc7f, .one .so), (0xc80, .one .lo), (0xc81, .one .mn), (0xc82, .one .mc), (0xc84, .one .po),
  (0xc85, .one .lo), (0xc8d, .one .cn), (0xc8e, .one .lo), (0xc91, .one .cn), (0xc92, .one .lo),
  (0xca9, .one .cn), (0xcaa, .one .lo), (0xcb4, .one .cn), (0xcb5, .one .lo), (0xcba, .one .cn),
  (0xcbc, .one .mn), (0xcbd, .one .lo), (0xcbe, .one .mc), (0xcbf, .one .mn), (0xcc0, .one .mc),
  (0xcc5, .one .cn), (0xcc6, .one .mn), (0xcc7, .one .mc), (0xcc9, .one .cn), (0xcca, .one .mc),
  (0xccc, .one .mn), (0xcce, .one .cn), (0xcd5, .one .mc), (0xcd7, .one .cn), (0xcdd, .one .lo),
  (0xcdf, .one .cn), (0xce0, .one .lo), (0xce2, .one .mn), (0xce4, .one .cn), (0xce6, .one .nd),
  (0xcf0, .one .cn), (0xcf1, .one .lo), (0xcf3, .one .mc), (0xcf4, .one .cn), (0xd00, .one .mn),
  (0xd02, .one .mc), (0xd04, .one .lo), (0xd0d, .one .cn), (0xd0e, .one .lo), (0xd11, .one .cn),
  (0xd12, .one .lo), (0xd3b, .one .mn), (0xd3d, .one .lo), (0xd3e, .one .mc), (0xd41, .one .mn),
  (0xd45, .one .cn), (0xd46, .one .mc), (0xd49, .one .cn), (0xd4a, .one .mc), (0xd4d, .one .mn),
  (0xd4e, .one .lo), (0xd4f, .one .so), (0xd50, .one .cn), (0xd54, .one .lo), (0xd57, .one .mc),
  (0xd58, .one .no), (0xd5f, .one .lo), (0xd62, .one .mn), (0xd64, .one .cn), (0xd66, .one .nd),
  (0xd70, .one .no), (0xd79, .one .so), (0xd7a, .one .lo), (0xd80, .one .cn), (0xd81, .one .mn),
  (0xd82, .one .mc), (0xd84, .one .cn), (0xd85, .one .lo), (0xd97, .one .cn), (0xd9a, .one .lo),
  (0xdb2, .one .cn), (0xdb3, .one .lo), (0xdbc, .one .cn), (0xdbd, .one .lo), (0xdbe, .one .cn),
  (0xdc0, .one .lo), (0xdc7, .one .cn), (0xdca, .one .mn), (0xdcb, .one .cn), (0xdcf, .one .mc),
  (0xdd2, .one .mn), (0xdd5, .one .cn), (0xdd6, .one .mn), (0xdd7, .one .cn), (0xdd8, .one .mc),
  (0xde0, .one .cn), (0xde6, .one .nd), (0xdf0, .one .cn), (0xdf2, .one .mc), (0xdf4, .one .po),
  (0xdf5, .one .cn), (0xe01, .one .lo), (0xe31, .one .mn), (0xe32, .one .lo), (0xe34, .one .mn),
  (0xe3b, .one .cn), (0xe3f, .one .sc), (0xe40, .one .lo), (0xe46, .one .lm), (0xe47, .one .mn),
  (0xe4f, .one .po), (0xe50, .one .nd), (0xe5a, .one .po), (0xe5c, .one .cn), (0xe81, .one .lo),
  (0xe83, .one .cn), (0xe84, .one .lo), (0xe85, .one .cn), (0xe86, .one .lo), (0xe8b, .one .cn),
  (0xe8c, .one .lo), (0xea4, .one .cn), (0xea5, .one .lo), (0xea6, .one .cn), (0xea7, .one .lo),
  (0xeb1, .one .mn), (0xeb2, .one .lo), (0xeb4, .one .mn), (0xebd, .one .lo), (0xebe, .one .cn),
  (0xec0, .one .lo), (0xec5, .one .cn), (0xec6, .one .lm), (0xec7, .one .cn), (0xec8, .one .mn),
  (0xecf, .one .cn), (0xed0, .one .nd), (0xeda, .one .cn), (0xedc, .one .lo), (0xee0, .one .cn),
  (0xf00, .one .lo), (0xf01, .one .so), (0xf04, .one .po), (0xf13, .one .so), (0xf14, .one .po),
  (0xf15, .one .so), (0xf18, .one .mn), (0xf1a, .one .so), (0xf20, .one .nd), (0xf2a, .one .no),
  (0xf34, .one .so), (0xf35, .one .mn), (0xf36, .one .so), (0xf37, .one .mn), (0xf38, .one .so),
  (0xf39, .one .mn), (0xf3a, .one .ps), (0xf3b, .one .pe), (0xf3c, .one .ps), (0xf3d, .one .pe),
  (0xf3e, .one .mc), (0xf40, .one .lo), (0xf48, .one .cn), (0xf49, .one .lo), (0xf6d, .one .cn),
  (0xf71, .one .mn), (0xf7f, .one .mc), (0xf80, .one .mn), (0xf85, .one .po), (0xf86, .one .mn),
  (0xf88, .one .lo), (0xf8d, .one .mn), (0xf98, .one .cn), (0xf99, .one .mn), (0xfbd, .one .cn),
  (0xfbe, .one .so), (0xfc6, .one .mn), (0xfc7, .one .so), (0xfcd, .one .cn), (0xfce, .one .so)]

private def categoryRuns3 : Array (Nat × CategoryRun) := #[
  (0xfd0, .one .po), (0xfd5, .one .so), (0xfd9, .one .po), (0xfdb, .one .cn), (0x1000, .one .lo),
  (0x102b, .one .mc), (0x102d, .one .mn), (0x1031, .one .mc), (0x1032, .one .mn),
  (0x1038, .one .mc), (0x1039, .one .mn), (0x103b, .one .mc), (0x103d, .one .mn),
  (0x103f, .one .lo), (0x1040, .one .nd), (0x104a, .one .po), (0x1050, .one .lo),
  (0x1056, .one .mc), (0x1058, .one .mn), (0x105a, .one .lo), (0x105e, .one .mn),
  (0x1061, .one .lo), (0x1062, .one .mc), (0x1065, .one .lo), (0x1067, .one .mc),
  (0x106e, .one .lo), (0x1071, .one .mn), (0x1075, .one .lo), (0x1082, .one .mn),
  (0x1083, .one .mc), (0x1085, .one .mn), (0x1087, .one .mc), (0x108d, .one .mn),
  (0x108e, .one .lo), (0x108f, .one .mc), (0x1090, .one .nd), (0x109a, .one .mc),
  (0x109d, .one .mn), (0x109e, .one .so), (0x10a0, .one .lu), (0x10c6, .one .cn),
  (0x10c7, .one .lu), (0x10c8, .one .cn), (0x10cd, .one .lu), (0x10ce, .one .cn),
  (0x10d0, .one .ll), (0x10fb, .one .po), (0x10fc, .one .lm), (0x10fd, .one .ll),
  (0x1100, .one .lo), (0x1249, .one .cn), (0x124a, .one .lo), (0x124e, .one .cn),
  (0x1250, .one .lo), (0x1257, .one .cn), (0x1258, .one .lo), (0x1259, .one .cn),
  (0x125a, .one .lo), (0x125e, .one .cn), (0x1260, .one .lo), (0x1289, .one .cn),
  (0x128a, .one .lo), (0x128e, .one .cn), (0x1290, .one .lo), (0x12b1, .one .cn),
  (0x12b2, .one .lo), (0x12b6, .one .cn), (0x12b8, .one .lo), (0x12bf, .one .cn),
  (0x12c0, .one .lo), (0x12c1, .one .cn), (0x12c2, .one .lo), (0x12c6, .one .cn),
  (0x12c8, .one .lo), (0x12d7, .one .cn), (0x12d8, .one .lo), (0x1311, .one .cn),
  (0x1312, .one .lo), (0x1316, .one .cn), (0x1318, .one .lo), (0x135b, .one .cn),
  (0x135d, .one .mn), (0x1360, .one .po), (0x1369, .one .no), (0x137d, .one .cn),
  (0x1380, .one .lo), (0x1390, .one .so), (0x139a, .one .cn), (0x13a0, .one .lu),
  (0x13f6, .one .cn), (0x13f8, .one .ll), (0x13fe, .one .cn), (0x1400, .one .pd),
  (0x1401, .one .lo), (0x166d, .one .so), (0x166e, .one .po), (0x166f, .one .lo),
  (0x1680, .one .zs), (0x1681, .one .lo), (0x169b, .one .ps), (0x169c, .one .pe),
  (0x169d, .one .cn), (0x16a0, .one .lo), (0x16eb, .one .po), (0x16ee, .one .nl),
  (0x16f1, .one .lo), (0x16f9, .one .cn), (0x1700, .one .lo), (0x1712, .one .mn),
  (0x1715, .one .mc), (0x1716, .one .cn), (0x171f, .one .lo), (0x1732, .one .mn),
  (0x1734, .one .mc), (0x1735, .one .po), (0x1737, .one .cn), (0x1740, .one .lo),
  (0x1752, .one .mn), (0x1754, .one .cn), (0x1760, .one .lo), (0x176d, .one .cn),
  (0x176e, .one .lo), (0x1771, .one .cn), (0x1772, .one .mn), (0x1774, .one .cn),
  (0x1780, .one .lo), (0x17b4, .one .mn), (0x17b6, .one .mc), (0x17b7, .one .mn),
  (0x17be, .one .mc), (0x17c6, .one .mn), (0x17c7, .one .mc), (0x17c9, .one .mn),
  (0x17d4, .one .po), (0x17d7, .one .lm), (0x17d8, .one .po), (0x17db, .one .sc),
  (0x17dc, .one .lo), (0x17dd, .one .mn), (0x17de, .one .cn), (0x17e0, .one .nd),
  (0x17ea, .one .cn), (0x17f0, .one .no), (0x17fa, .one .cn), (0x1800, .one .po),
  (0x1806, .one .pd), (0x1807, .one .po), (0x180b, .one .mn), (0x180e, .one .cf),
  (0x180f, .one .mn), (0x1810, .one .nd), (0x181a, .one .cn), (0x1820, .one .lo),
  (0x1843, .one .lm), (0x1844, .one .lo), (0x1879, .one .cn), (0x1880, .one .lo),
  (0x1885, .one .mn), (0x1887, .one .lo), (0x18a9, .one .mn), (0x18aa, .one .lo),
  (0x18ab, .one .cn), (0x18b0, .one .lo), (0x18f6, .one .cn), (0x1900, .one .lo),
  (0x191f, .one .cn), (0x1920, .one .mn), (0x1923, .one .mc), (0x1927, .one .mn),
  (0x1929, .one .mc), (0x192c, .one .cn), (0x1930, .one .mc), (0x1932, .one .mn),
  (0x1933, .one .mc), (0x1939, .one .mn), (0x193c, .one .cn), (0x1940, .one .so),
  (0x1941, .one .cn), (0x1944, .one .po), (0x1946, .one .nd), (0x1950, .one .lo),
  (0x196e, .one .cn), (0x1970, .one .lo), (0x1975, .one .cn), (0x1980, .one .lo),
  (0x19ac, .one .cn), (0x19b0, .one .lo), (0x19ca, .one .cn), (0x19d0, .one .nd),
  (0x19da, .one .no), (0x19db, .one .cn), (0x19de, .one .so), (0x1a00, .one .lo),
  (0x1a17, .one .mn), (0x1a19, .one .mc), (0x1a1b, .one .mn), (0x1a1c, .one .cn),
  (0x1a1e, .one .po), (0x1a20, .one .lo), (0x1a55, .one .mc), (0x1a56, .one .mn),
  (0x1a57, .one .mc), (0x1a58, .one .mn), (0x1a5f, .one .cn), (0x1a60, .one .mn),
  (0x1a61, .one .mc), (0x1a62, .one .mn), (0x1a63, .one .mc), (0x1a65, .one .mn),
  (0x1a6d, .one .mc), (0x1a73, .one .mn), (0x1a7d, .one .cn), (0x1a7f, .one .mn),
  (0x1a80, .one .nd), (0x1a8a, .one .cn), (0x1a90, .one .nd), (0x1a9a, .one .cn),
  (0x1aa0, .one .po), (0x1aa7, .one .lm), (0x1aa8, .one .po), (0x1aae, .one .cn),
  (0x1ab0, .one .mn), (0x1abe, .one .me), (0x1abf, .one .mn), (0x1acf, .one .cn),
  (0x1b00, .one .mn), (0x1b04, .one .mc), (0x1b05, .one .lo), (0x1b34, .one .mn),
  (0x1b35, .one .mc), (0x1b36, .one .mn), (0x1b3b, .one .mc), (0x1b3c, .one .mn),
  (0x1b3d, .one .mc), (0x1b42, .one .mn), (0x1b43, .one .mc), (0x1b45, .one .lo),
  (0x1b4d, .one .cn), (0x1b50, .one .nd), (0x1b5a, .one .po), (0x1b61, .one .so),
  (0x1b6b, .one .mn), (0x1b74, .one .so), (0x1b7d, .one .po), (0x1b7f, .one .cn),
  (0x1b80, .one .mn), (0x1b82, .one .mc), (0x1b83, .one .lo), (0x1ba1, .one .mc),
  (0x1ba2, .one .mn)]

private def categoryRuns4 : Array (Nat × CategoryRun) := #[
  (0x1ba6, .one .mc), (0x1ba8, .one .mn), (0x1baa, .one .mc), (0x1bab, .one .mn),
  (0x1bae, .one .lo), (0x1bb0, .one .nd), (0x1bba, .one .lo), (0x1be6, .one .mn),
  (0x1be7, .one .mc), (0x1be8, .one .mn), (0x1bea, .one .mc), (0x1bed, .one .mn),
  (0x1bee, .one .mc), (0x1bef, .one .mn), (0x1bf2, .one .mc), (0x1bf4, .one .cn),
  (0x1bfc, .one .po), (0x1c00, .one .lo), (0x1c24, .one .mc), (0x1c2c, .one .mn),
  (0x1c34, .one .mc), (0x1c36, .one .mn), (0x1c38, .one .cn), (0x1c3b, .one .po),
  (0x1c40, .one .nd), (0x1c4a, .one .cn), (0x1c4d, .one .lo), (0x1c50, .one .nd),
  (0x1c5a, .one .lo), (0x1c78, .one .lm), (0x1c7e, .one .po), (0x1c80, .one .ll),
  (0x1c89, .one .cn), (0x1c90, .one .lu), (0x1cbb, .one .cn), (0x1cbd, .one .lu),
  (0x1cc0, .one .po), (0x1cc8, .one .cn), (0x1cd0, .one .mn), (0x1cd3, .one .po),
  (0x1cd4, .one .mn), (0x1ce1, .one .mc), (0x1ce2, .one .mn), (0x1ce9, .one .lo),
  (0x1ced, .one .mn), (0x1cee, .one .lo), (0x1cf4, .one .mn), (0x1cf5, .one .lo),
  (0x1cf7, .one .mc), (0x1cf8, .one .mn), (0x1cfa, .one .lo), (0x1cfb, .one .cn),
  (0x1d00, .one .ll), (0x1d2c, .one .lm), (0x1d6b, .one .ll), (0x1d78, .one .lm),
  (0x1d79, .one .ll), (0x1d9b, .one .lm), (0x1dc0, .one .mn), (0x1e00, .paired),
  (0x1e94, .one .lu), (0x1e95, .one .ll), (0x1e9e, .paired), (0x1efe, .one .lu),
  (0x1eff, .one .ll), (0x1f08, .one .lu), (0x1f10, .one .ll), (0x1f16, .one .cn),
  (0x1f18, .one .lu), (0x1f1e, .one .cn), (0x1f20, .one .ll), (0x1f28, .one .lu),
  (0x1f30, .one .ll), (0x1f38, .one .lu), (0x1f40, .one .ll), (0x1f46, .one .cn),
  (0x1f48, .one .lu), (0x1f4e, .one .cn), (0x1f50, .one .ll), (0x1f58, .one .cn),
  (0x1f59, .one .lu), (0x1f5a, .one .cn), (0x1f5b, .one .lu), (0x1f5c, .one .cn),
  (0x1f5d, .one .lu), (0x1f5e, .one .cn), (0x1f5f, .one .lu), (0x1f60, .one .ll),
  (0x1f68, .one .lu), (0x1f70, .one .ll), (0x1f7e, .one .cn), (0x1f80, .one .ll),
  (0x1f88, .one .lt), (0x1f90, .one .ll), (0x1f98, .one .lt), (0x1fa0, .one .ll),
  (0x1fa8, .one .lt), (0x1fb0, .one .ll), (0x1fb5, .one .cn), (0x1fb6, .one .ll),
  (0x1fb8, .one .lu), (0x1fbc, .one .lt), (0x1fbd, .one .sk), (0x1fbe, .one .ll),
  (0x1fbf, .one .sk), (0x1fc2, .one .ll), (0x1fc5, .one .cn), (0x1fc6, .one .ll),
  (0x1fc8, .one .lu), (0x1fcc, .one .lt), (0x1fcd, .one .sk), (0x1fd0, .one .ll),
  (0x1fd4, .one .cn), (0x1fd6, .one .ll), (0x1fd8, .one .lu), (0x1fdc, .one .cn),
  (0x1fdd, .one .sk), (0x1fe0, .one .ll), (0x1fe8, .one .lu), (0x1fed, .one .sk),
  (0x1ff0, .one .cn), (0x1ff2, .one .ll), (0x1ff5, .one .cn), (0x1ff6, .one .ll),
  (0x1ff8, .one .lu), (0x1ffc, .one .lt), (0x1ffd, .one .sk), (0x1fff, .one .cn),
  (0x2000, .one .zs), (0x200b, .one .cf), (0x2010, .one .pd), (0x2016, .one .po),
  (0x2018, .one .pi), (0x2019, .one .pf), (0x201a, .one .ps), (0x201b, .one .pi),
  (0x201d, .one .pf), (0x201e, .one .ps), (0x201f, .one .pi), (0x2020, .one .po),
  (0x2028, .one .zl), (0x2029, .one .zp), (0x202a, .one .cf), (0x202f, .one .zs),
  (0x2030, .one .po), (0x2039, .one .pi), (0x203a, .one .pf), (0x203b, .one .po),
  (0x203f, .one .pc), (0x2041, .one .po), (0x2044, .one .sm), (0x2045, .one .ps),
  (0x2046, .one .pe), (0x2047, .one .po), (0x2052, .one .sm), (0x2053, .one .po),
  (0x2054, .one .pc), (0x2055, .one .po), (0x205f, .one .zs), (0x2060, .one .cf),
  (0x2065, .one .cn), (0x2066, .one .cf), (0x2070, .one .no), (0x2071, .one .lm),
  (0x2072, .one .cn), (0x2074, .one .no), (0x207a, .one .sm), (0x207d, .one .ps),
  (0x207e, .one .pe), (0x207f, .one .lm), (0x2080, .one .no), (0x208a, .one .sm),
  (0x208d, .one .ps), (0x208e, .one .pe), (0x208f, .one .cn), (0x2090, .one .lm),
  (0x209d, .one .cn), (0x20a0, .one .sc), (0x20c1, .one .cn), (0x20d0, .one .mn),
  (0x20dd, .one .me), (0x20e1, .one .mn), (0x20e2, .one .me), (0x20e5, .one .mn),
  (0x20f1, .one .cn), (0x2100, .one .so), (0x2102, .one .lu), (0x2103, .one .so),
  (0x2107, .one .lu), (0x2108, .one .so), (0x210a, .one .ll), (0x210b, .one .lu),
  (0x210e, .one .ll), (0x2110, .one .lu), (0x2113, .one .ll), (0x2114, .one .so),
  (0x2115, .one .lu), (0x2116, .one .so), (0x2118, .one .sm), (0x2119, .one .lu),
  (0x211e, .one .so), (0x2124, .one .lu), (0x2125, .one .so), (0x2126, .one .lu),
  (0x2127, .one .so), (0x2128, .one .lu), (0x2129, .one .so), (0x212a, .one .lu),
  (0x212e, .one .so), (0x212f, .one .ll), (0x2130, .one .lu), (0x2134, .one .ll),
  (0x2135, .one .lo), (0x2139, .one .ll), (0x213a, .one .so), (0x213c, .one .ll),
  (0x213e, .one .lu), (0x2140, .one .sm), (0x2145, .one .lu), (0x2146, .one .ll),
  (0x214a, .one .so), (0x214b, .one .sm), (0x214c, .one .so), (0x214e, .one .ll),
  (0x214f, .one .so), (0x2150, .one .no), (0x2160, .one .nl), (0x2183, .one .lu),
  (0x2184, .one .ll), (0x2185, .one .nl), (0x2189, .one .no), (0x218a, .one .so),
  (0x218c, .one .cn), (0x2190, .one .sm), (0x2195, .one .so), (0x219a, .one .sm),
  (0x219c, .one .so), (0x21a0, .one .sm), (0x21a1, .one .so), (0x21a3, .one .sm),
  (0x21a4, .one .so), (0x21a6, .one .sm), (0x21a7, .one .so), (0x21ae, .one .sm),
  (0x21af, .one .so), (0x21ce, .one .sm), (0x21d0, .one .so), (0x21d2, .one .sm),
  (0x21d3, .one .so), (0x21d4, .one .sm)]

private def categoryRuns5 : Array (Nat × CategoryRun) := #[
  (0x21d5, .one .so), (0x21f4, .one .sm), (0x2300, .one .so), (0x2308, .one .ps),
  (0x2309, .one .pe), (0x230a, .one .ps), (0x230b, .one .pe), (0x230c, .one .so),
  (0x2320, .one .sm), (0x2322, .one .so), (0x2329, .one .ps), (0x232a, .one .pe),
  (0x232b, .one .so), (0x237c, .one .sm), (0x237d, .one .so), (0x239b, .one .sm),
  (0x23b4, .one .so), (0x23dc, .one .sm), (0x23e2, .one .so), (0x2427, .one .cn),
  (0x2440, .one .so), (0x244b, .one .cn), (0x2460, .one .no), (0x249c, .one .so),
  (0x24ea, .one .no), (0x2500, .one .so), (0x25b7, .one .sm), (0x25b8, .one .so),
  (0x25c1, .one .sm), (0x25c2, .one .so), (0x25f8, .one .sm), (0x2600, .one .so),
  (0x266f, .one .sm), (0x2670, .one .so), (0x2768, .one .ps), (0x2769, .one .pe),
  (0x276a, .one .ps), (0x276b, .one .pe), (0x276c, .one .ps), (0x276d, .one .pe),
  (0x276e, .one .ps), (0x276f, .one .pe), (0x2770, .one .ps), (0x2771, .one .pe),
  (0x2772, .one .ps), (0x2773, .one .pe), (0x2774, .one .ps), (0x2775, .one .pe),
  (0x2776, .one .no), (0x2794, .one .so), (0x27c0, .one .sm), (0x27c5, .one .ps),
  (0x27c6, .one .pe), (0x27c7, .one .sm), (0x27e6, .one .ps), (0x27e7, .one .pe),
  (0x27e8, .one .ps), (0x27e9, .one .pe), (0x27ea, .one .ps), (0x27eb, .one .pe),
  (0x27ec, .one .ps), (0x27ed, .one .pe), (0x27ee, .one .ps), (0x27ef, .one .pe),
  (0x27f0, .one .sm), (0x2800, .one .so), (0x2900, .one .sm), (0x2983, .one .ps),
  (0x2984, .one .pe), (0x2985, .one .ps), (0x2986, .one .pe), (0x2987, .one .ps),
  (0x2988, .one .pe), (0x2989, .one .ps), (0x298a, .one .pe), (0x298b, .one .ps),
  (0x298c, .one .pe), (0x298d, .one .ps), (0x298e, .one .pe), (0x298f, .one .ps),
  (0x2990, .one .pe), (0x2991, .one .ps), (0x2992, .one .pe), (0x2993, .one .ps),
  (0x2994, .one .pe), (0x2995, .one .ps), (0x2996, .one .pe), (0x2997, .one .ps),
  (0x2998, .one .pe), (0x2999, .one .sm), (0x29d8, .one .ps), (0x29d9, .one .pe),
  (0x29da, .one .ps), (0x29db, .one .pe), (0x29dc, .one .sm), (0x29fc, .one .ps),
  (0x29fd, .one .pe), (0x29fe, .one .sm), (0x2b00, .one .so), (0x2b30, .one .sm),
  (0x2b45, .one .so), (0x2b47, .one .sm), (0x2b4d, .one .so), (0x2b74, .one .cn),
  (0x2b76, .one .so), (0x2b96, .one .cn), (0x2b97, .one .so), (0x2c00, .one .lu),
  (0x2c30, .one .ll), (0x2c60, .one .lu), (0x2c61, .one .ll), (0x2c62, .one .lu),
  (0x2c65, .one .ll), (0x2c67, .paired), (0x2c6d, .one .lu), (0x2c71, .one .ll),
  (0x2c72, .one .lu), (0x2c73, .one .ll), (0x2c75, .one .lu), (0x2c76, .one .ll),
  (0x2c7c, .one .lm), (0x2c7e, .one .lu), (0x2c81, .one .ll), (0x2c82, .paired),
  (0x2ce2, .one .lu), (0x2ce3, .one .ll), (0x2ce5, .one .so), (0x2ceb, .paired),
  (0x2cef, .one .mn), (0x2cf2, .one .lu), (0x2cf3, .one .ll), (0x2cf4, .one .cn),
  (0x2cf9, .one .po), (0x2cfd, .one .no), (0x2cfe, .one .po), (0x2d00, .one .ll),
  (0x2d26, .one .cn), (0x2d27, .one .ll), (0x2d28, .one .cn), (0x2d2d, .one .ll),
  (0x2d2e, .one .cn), (0x2d30, .one .lo), (0x2d68, .one .cn), (0x2d6f, .one .lm),
  (0x2d70, .one .po), (0x2d71, .one .cn), (0x2d7f, .one .mn), (0x2d80, .one .lo),
  (0x2d97, .one .cn), (0x2da0, .one .lo), (0x2da7, .one .cn), (0x2da8, .one .lo),
  (0x2daf, .one .cn), (0x2db0, .one .lo), (0x2db7, .one .cn), (0x2db8, .one .lo),
  (0x2dbf, .one .cn), (0x2dc0, .one .lo), (0x2dc7, .one .cn), (0x2dc8, .one .lo),
  (0x2dcf, .one .cn), (0x2dd0, .one .lo), (0x2dd7, .one .cn), (0x2dd8, .one .lo),
  (0x2ddf, .one .cn), (0x2de0, .one .mn), (0x2e00, .one .po), (0x2e02, .one .pi),
  (0x2e03, .one .pf), (0x2e04, .one .pi), (0x2e05, .one .pf), (0x2e06, .one .po),
  (0x2e09, .one .pi), (0x2e0a, .one .pf), (0x2e0b, .one .po), (0x2e0c, .one .pi),
  (0x2e0d, .one .pf), (0x2e0e, .one .po), (0x2e17, .one .pd), (0x2e18, .one .po),
  (0x2e1a, .one .pd), (0x2e1b, .one .po), (0x2e1c, .one .pi), (0x2e1d, .one .pf),
  (0x2e1e, .one .po), (0x2e20, .one .pi), (0x2e21, .one .pf), (0x2e22, .one .ps),
  (0x2e23, .one .pe), (0x2e24, .one .ps), (0x2e25, .one .pe), (0x2e26, .one .ps),
  (0x2e27, .one .pe), (0x2e28, .one .ps), (0x2e29, .one .pe), (0x2e2a, .one .po),
  (0x2e2f, .one .lm), (0x2e30, .one .po), (0x2e3a, .one .pd), (0x2e3c, .one .po),
  (0x2e40, .one .pd), (0x2e41, .one .po), (0x2e42, .one .ps), (0x2e43, .one .po),
  (0x2e50, .one .so), (0x2e52, .one .po), (0x2e55, .one .ps), (0x2e56, .one .pe),
  (0x2e57, .one .ps), (0x2e58, .one .pe), (0x2e59, .one .ps), (0x2e5a, .one .pe),
  (0x2e5b, .one .ps), (0x2e5c, .one .pe), (0x2e5d, .one .pd), (0x2e5e, .one .cn),
  (0x2e80, .one .so), (0x2e9a, .one .cn), (0x2e9b, .one .so), (0x2ef4, .one .cn),
  (0x2f00, .one .so), (0x2fd6, .one .cn), (0x2ff0, .one .so), (0x2ffc, .one .cn),
  (0x3000, .one .zs), (0x3001, .one .po), (0x3004, .one .so), (0x3005, .one .lm),
  (0x3006, .one .lo), (0x3007, .one .nl), (0x3008, .one .ps), (0x3009, .one .pe),
  (0x300a, .one .ps), (0x300b, .one .pe), (0x300c, .one .ps), (0x300d, .one .pe),
  (0x300e, .one .ps), (0x300f, .one .pe), (0x3010, .one .ps), (0x3011, .one .pe),
  (0x3012, .one .so), (0x3014, .one .ps), (0x3015, .one .pe), (0x3016, .one .ps),
  (0x3017, .one .pe), (0x3018, .one .ps), (0x3019, .one .pe), (0x301a, .one .ps),
  (0x301b, .one .pe), (0x301c, .one .pd)]

private def categoryRuns6 : Array (Nat × CategoryRun) := #[
  (0x301d, .one .ps), (0x301e, .one .pe), (0x3020, .one .so), (0x3021, .one .nl),
  (0x302a, .one .mn), (0x302e, .one .mc), (0x3030, .one .pd), (0x3031, .one .lm),
  (0x3036, .one .so), (0x3038, .one .nl), (0x303b, .one .lm), (0x303c, .one .lo),
  (0x303d, .one .po), (0x303e, .one .so), (0x3040, .one .cn), (0x3041, .one .lo),
  (0x3097, .one .cn), (0x3099, .one .mn), (0x309b, .one .sk), (0x309d, .one .lm),
  (0x309f, .one .lo), (0x30a0, .one .pd), (0x30a1, .one .lo), (0x30fb, .one .po),
  (0x30fc, .one .lm), (0x30ff, .one .lo), (0x3100, .one .cn), (0x3105, .one .lo),
  (0x3130, .one .cn), (0x3131, .one .lo), (0x318f, .one .cn), (0x3190, .one .so),
  (0x3192, .one .no), (0x3196, .one .so), (0x31a0, .one .lo), (0x31c0, .one .so),
  (0x31e4, .one .cn), (0x31f0, .one .lo), (0x3200, .one .so), (0x321f, .one .cn),
  (0x3220, .one .no), (0x322a, .one .so), (0x3248, .one .no), (0x3250, .one .so),
  (0x3251, .one .no), (0x3260, .one .so), (0x3280, .one .no), (0x328a, .one .so),
  (0x32b1, .one .no), (0x32c0, .one .so), (0x3400, .one .lo), (0x4dc0, .one .so),
  (0x4e00, .one .lo), (0xa015, .one .lm), (0xa016, .one .lo), (0xa48d, .one .cn),
  (0xa490, .one .so), (0xa4c7, .one .cn), (0xa4d0, .one .lo), (0xa4f8, .one .lm),
  (0xa4fe, .one .po), (0xa500, .one .lo), (0xa60c, .one .lm), (0xa60d, .one .po),
  (0xa610, .one .lo), (0xa620, .one .nd), (0xa62a, .one .lo), (0xa62c, .one .cn),
  (0xa640, .paired), (0xa66e, .one .lo), (0xa66f, .one .mn), (0xa670, .one .me),
  (0xa673, .one .po), (0xa674, .one .mn), (0xa67e, .one .po), (0xa67f, .one .lm),
  (0xa680, .paired), (0xa69c, .one .lm), (0xa69e, .one .mn), (0xa6a0, .one .lo),
  (0xa6e6, .one .nl), (0xa6f0, .one .mn), (0xa6f2, .one .po), (0xa6f8, .one .cn),
  (0xa700, .one .sk), (0xa717, .one .lm), (0xa720, .one .sk), (0xa722, .paired),
  (0xa72e, .one .lu), (0xa72f, .one .ll), (0xa732, .paired), (0xa770, .one .lm),
  (0xa771, .one .ll), (0xa779, .paired), (0xa77d, .one .lu), (0xa77f, .one .ll),
  (0xa780, .paired), (0xa788, .one .lm), (0xa789, .one .sk), (0xa78b, .paired),
  (0xa78f, .one .lo), (0xa790, .one .lu), (0xa791, .one .ll), (0xa792, .one .lu),
  (0xa793, .one .ll), (0xa796, .paired), (0xa7aa, .one .lu), (0xa7af, .one .ll),
  (0xa7b0, .one .lu), (0xa7b5, .one .ll), (0xa7b6, .paired), (0xa7c4, .one .lu),
  (0xa7c8, .one .ll), (0xa7c9, .one .lu), (0xa7ca, .one .ll), (0xa7cb, .one .cn),
  (0xa7d0, .one .lu), (0xa7d1, .one .ll), (0xa7d2, .one .cn), (0xa7d3, .one .ll),
  (0xa7d4, .one .cn), (0xa7d5, .one .ll), (0xa7d6, .paired), (0xa7da, .one .cn),
  (0xa7f2, .one .lm), (0xa7f5, .one .lu), (0xa7f6, .one .ll), (0xa7f7, .one .lo),
  (0xa7f8, .one .lm), (0xa7fa, .one .ll), (0xa7fb, .one .lo), (0xa802, .one .mn),
  (0xa803, .one .lo), (0xa806, .one .mn), (0xa807, .one .lo), (0xa80b, .one .mn),
  (0xa80c, .one .lo), (0xa823, .one .mc), (0xa825, .one .mn), (0xa827, .one .mc),
  (0xa828, .one .so), (0xa82c, .one .mn), (0xa82d, .one .cn), (0xa830, .one .no),
  (0xa836, .one .so), (0xa838, .one .sc), (0xa839, .one .so), (0xa83a, .one .cn),
  (0xa840, .one .lo), (0xa874, .one .po), (0xa878, .one .cn), (0xa880, .one .mc),
  (0xa882, .one .lo), (0xa8b4, .one .mc), (0xa8c4, .one .mn), (0xa8c6, .one .cn),
  (0xa8ce, .one .po), (0xa8d0, .one .nd), (0xa8da, .one .cn), (0xa8e0, .one .mn),
  (0xa8f2, .one .lo), (0xa8f8, .one .po), (0xa8fb, .one .lo), (0xa8fc, .one .po),
  (0xa8fd, .one .lo), (0xa8ff, .one .mn), (0xa900, .one .nd), (0xa90a, .one .lo),
  (0xa926, .one .mn), (0xa92e, .one .po), (0xa930, .one .lo), (0xa947, .one .mn),
  (0xa952, .one .mc), (0xa954, .one .cn), (0xa95f, .one .po), (0xa960, .one .lo),
  (0xa97d, .one .cn), (0xa980, .one .mn), (0xa983, .one .mc), (0xa984, .one .lo),
  (0xa9b3, .one .mn), (0xa9b4, .one .mc), (0xa9b6, .one .mn), (0xa9ba, .one .mc),
  (0xa9bc, .one .mn), (0xa9be, .one .mc), (0xa9c1, .one .po), (0xa9ce, .one .cn),
  (0xa9cf, .one .lm), (0xa9d0, .one .nd), (0xa9da, .one .cn), (0xa9de, .one .po),
  (0xa9e0, .one .lo), (0xa9e5, .one .mn), (0xa9e6, .one .lm), (0xa9e7, .one .lo),
  (0xa9f0, .one .nd), (0xa9fa, .one .lo), (0xa9ff, .one .cn), (0xaa00, .one .lo),
  (0xaa29, .one .mn), (0xaa2f, .one .mc), (0xaa31, .one .mn), (0xaa33, .one .mc),
  (0xaa35, .one .mn), (0xaa37, .one .cn), (0xaa40, .one .lo), (0xaa43, .one .mn),
  (0xaa44, .one .lo), (0xaa4c, .one .mn), (0xaa4d, .one .mc), (0xaa4e, .one .cn),
  (0xaa50, .one .nd), (0xaa5a, .one .cn), (0xaa5c, .one .po), (0xaa60, .one .lo),
  (0xaa70, .one .lm), (0xaa71, .one .lo), (0xaa77, .one .so), (0xaa7a, .one .lo),
  (0xaa7b, .one .mc), (0xaa7c, .one .mn), (0xaa7d, .one .mc), (0xaa7e, .one .lo),
  (0xaab0, .one .mn), (0xaab1, .one .lo), (0xaab2, .one .mn), (0xaab5, .one .lo),
  (0xaab7, .one .mn), (0xaab9, .one .lo), (0xaabe, .one .mn), (0xaac0, .one .lo),
  (0xaac1, .one .mn), (0xaac2, .one .lo), (0xaac3, .one .cn), (0xaadb, .one .lo),
  (0xaadd, .one .lm), (0xaade, .one .po), (0xaae0, .one .lo), (0xaaeb, .one .mc),
  (0xaaec, .one .mn), (0xaaee, .one .mc), (0xaaf0, .one .po), (0xaaf2, .one .lo),
  (0xaaf3, .one .lm), (0xaaf5, .one .mc), (0xaaf6, .one .mn), (0xaaf7, .one .cn),
  (0xab01, .one .lo), (0xab07, .one .cn)]

private def categoryRuns7 : Array (Nat × CategoryRun) := #[
  (0xab09, .one .lo), (0xab0f, .one .cn), (0xab11, .one .lo), (0xab17, .one .cn),
  (0xab20, .one .lo), (0xab27, .one .cn), (0xab28, .one .lo), (0xab2f, .one .cn),
  (0xab30, .one .ll), (0xab5b, .one .sk), (0xab5c, .one .lm), (0xab60, .one .ll),
  (0xab69, .one .lm), (0xab6a, .one .sk), (0xab6c, .one .cn), (0xab70, .one .ll),
  (0xabc0, .one .lo), (0xabe3, .one .mc), (0xabe5, .one .mn), (0xabe6, .one .mc),
  (0xabe8, .one .mn), (0xabe9, .one .mc), (0xabeb, .one .po), (0xabec, .one .mc),
  (0xabed, .one .mn), (0xabee, .one .cn), (0xabf0, .one .nd), (0xabfa, .one .cn),
  (0xac00, .one .lo), (0xd7a4, .one .cn), (0xd7b0, .one .lo), (0xd7c7, .one .cn),
  (0xd7cb, .one .lo), (0xd7fc, .one .cn), (0xd800, .one .cs), (0xe000, .one .co),
  (0xf900, .one .lo), (0xfa6e, .one .cn), (0xfa70, .one .lo), (0xfada, .one .cn),
  (0xfb00, .one .ll), (0xfb07, .one .cn), (0xfb13, .one .ll), (0xfb18, .one .cn),
  (0xfb1d, .one .lo), (0xfb1e, .one .mn), (0xfb1f, .one .lo), (0xfb29, .one .sm),
  (0xfb2a, .one .lo), (0xfb37, .one .cn), (0xfb38, .one .lo), (0xfb3d, .one .cn),
  (0xfb3e, .one .lo), (0xfb3f, .one .cn), (0xfb40, .one .lo), (0xfb42, .one .cn),
  (0xfb43, .one .lo), (0xfb45, .one .cn), (0xfb46, .one .lo), (0xfbb2, .one .sk),
  (0xfbc3, .one .cn), (0xfbd3, .one .lo), (0xfd3e, .one .pe), (0xfd3f, .one .ps),
  (0xfd40, .one .so), (0xfd50, .one .lo), (0xfd90, .one .cn), (0xfd92, .one .lo),
  (0xfdc8, .one .cn), (0xfdcf, .one .so), (0xfdd0, .one .cn), (0xfdf0, .one .lo),
  (0xfdfc, .one .sc), (0xfdfd, .one .so), (0xfe00, .one .mn), (0xfe10, .one .po),
  (0xfe17, .one .ps), (0xfe18, .one .pe), (0xfe19, .one .po), (0xfe1a, .one .cn),
  (0xfe20, .one .mn), (0xfe30, .one .po), (0xfe31, .one .pd), (0xfe33, .one .pc),
  (0xfe35, .one .ps), (0xfe36, .one .pe), (0xfe37, .one .ps), (0xfe38, .one .pe),
  (0xfe39, .one .ps), (0xfe3a, .one .pe), (0xfe3b, .one .ps), (0xfe3c, .one .pe),
  (0xfe3d, .one .ps), (0xfe3e, .one .pe), (0xfe3f, .one .ps), (0xfe40, .one .pe),
  (0xfe41, .one .ps), (0xfe42, .one .pe), (0xfe43, .one .ps), (0xfe44, .one .pe),
  (0xfe45, .one .po), (0xfe47, .one .ps), (0xfe48, .one .pe), (0xfe49, .one .po),
  (0xfe4d, .one .pc), (0xfe50, .one .po), (0xfe53, .one .cn), (0xfe54, .one .po),
  (0xfe58, .one .pd), (0xfe59, .one .ps), (0xfe5a, .one .pe), (0xfe5b, .one .ps),
  (0xfe5c, .one .pe), (0xfe5d, .one .ps), (0xfe5e, .one .pe), (0xfe5f, .one .po),
  (0xfe62, .one .sm), (0xfe63, .one .pd), (0xfe64, .one .sm), (0xfe67, .one .cn),
  (0xfe68, .one .po), (0xfe69, .one .sc), (0xfe6a, .one .po), (0xfe6c, .one .cn),
  (0xfe70, .one .lo), (0xfe75, .one .cn), (0xfe76, .one .lo), (0xfefd, .one .cn),
  (0xfeff, .one .cf), (0xff00, .one .cn), (0xff01, .one .po), (0xff04, .one .sc),
  (0xff05, .one .po), (0xff08, .one .ps), (0xff09, .one .pe), (0xff0a, .one .po),
  (0xff0b, .one .sm), (0xff0c, .one .po), (0xff0d, .one .pd), (0xff0e, .one .po),
  (0xff10, .one .nd), (0xff1a, .one .po), (0xff1c, .one .sm), (0xff1f, .one .po),
  (0xff21, .one .lu), (0xff3b, .one .ps), (0xff3c, .one .po), (0xff3d, .one .pe),
  (0xff3e, .one .sk), (0xff3f, .one .pc), (0xff40, .one .sk), (0xff41, .one .ll),
  (0xff5b, .one .ps), (0xff5c, .one .sm), (0xff5d, .one .pe), (0xff5e, .one .sm),
  (0xff5f, .one .ps), (0xff60, .one .pe), (0xff61, .one .po), (0xff62, .one .ps),
  (0xff63, .one .pe), (0xff64, .one .po), (0xff66, .one .lo), (0xff70, .one .lm),
  (0xff71, .one .lo), (0xff9e, .one .lm), (0xffa0, .one .lo), (0xffbf, .one .cn),
  (0xffc2, .one .lo), (0xffc8, .one .cn), (0xffca, .one .lo), (0xffd0, .one .cn),
  (0xffd2, .one .lo), (0xffd8, .one .cn), (0xffda, .one .lo), (0xffdd, .one .cn),
  (0xffe0, .one .sc), (0xffe2, .one .sm), (0xffe3, .one .sk), (0xffe4, .one .so),
  (0xffe5, .one .sc), (0xffe7, .one .cn), (0xffe8, .one .so), (0xffe9, .one .sm),
  (0xffed, .one .so), (0xffef, .one .cn), (0xfff9, .one .cf), (0xfffc, .one .so),
  (0xfffe, .one .cn), (0x10000, .one .lo), (0x1000c, .one .cn), (0x1000d, .one .lo),
  (0x10027, .one .cn), (0x10028, .one .lo), (0x1003b, .one .cn), (0x1003c, .one .lo),
  (0x1003e, .one .cn), (0x1003f, .one .lo), (0x1004e, .one .cn), (0x10050, .one .lo),
  (0x1005e, .one .cn), (0x10080, .one .lo), (0x100fb, .one .cn), (0x10100, .one .po),
  (0x10103, .one .cn), (0x10107, .one .no), (0x10134, .one .cn), (0x10137, .one .so),
  (0x10140, .one .nl), (0x10175, .one .no), (0x10179, .one .so), (0x1018a, .one .no),
  (0x1018c, .one .so), (0x1018f, .one .cn), (0x10190, .one .so), (0x1019d, .one .cn),
  (0x101a0, .one .so), (0x101a1, .one .cn), (0x101d0, .one .so), (0x101fd, .one .mn),
  (0x101fe, .one .cn), (0x10280, .one .lo), (0x1029d, .one .cn), (0x102a0, .one .lo),
  (0x102d1, .one .cn), (0x102e0, .one .mn), (0x102e1, .one .no), (0x102fc, .one .cn),
  (0x10300, .one .lo), (0x10320, .one .no), (0x10324, .one .cn), (0x1032d, .one .lo),
  (0x10341, .one .nl), (0x10342, .one .lo), (0x1034a, .one .nl), (0x1034b, .one .cn),
  (0x10350, .one .lo), (0x10376, .one .mn), (0x1037b, .one .cn), (0x10380, .one .lo),
  (0x1039e, .one .cn), (0x1039f, .one .po), (0x103a0, .one .lo), (0x103c4, .one .cn),
  (0x103c8, .one .lo), (0x103d0, .one .po), (0x103d1, .one .nl), (0x103d6, .one .cn),
  (0x10400, .one .lu), (0x10428, .one .ll)]

private def categoryRuns8 : Array (Nat × CategoryRun) := #[
  (0x10450, .one .lo), (0x1049e, .one .cn), (0x104a0, .one .nd), (0x104aa, .one .cn),
  (0x104b0, .one .lu), (0x104d4, .one .cn), (0x104d8, .one .ll), (0x104fc, .one .cn),
  (0x10500, .one .lo), (0x10528, .one .cn), (0x10530, .one .lo), (0x10564, .one .cn),
  (0x1056f, .one .po), (0x10570, .one .lu), (0x1057b, .one .cn), (0x1057c, .one .lu),
  (0x1058b, .one .cn), (0x1058c, .one .lu), (0x10593, .one .cn), (0x10594, .one .lu),
  (0x10596, .one .cn), (0x10597, .one .ll), (0x105a2, .one .cn), (0x105a3, .one .ll),
  (0x105b2, .one .cn), (0x105b3, .one .ll), (0x105ba, .one .cn), (0x105bb, .one .ll),
  (0x105bd, .one .cn), (0x10600, .one .lo), (0x10737, .one .cn), (0x10740, .one .lo),
  (0x10756, .one .cn), (0x10760, .one .lo), (0x10768, .one .cn), (0x10780, .one .lm),
  (0x10786, .one .cn), (0x10787, .one .lm), (0x107b1, .one .cn), (0x107b2, .one .lm),
  (0x107bb, .one .cn), (0x10800, .one .lo), (0x10806, .one .cn), (0x10808, .one .lo),
  (0x10809, .one .cn), (0x1080a, .one .lo), (0x10836, .one .cn), (0x10837, .one .lo),
  (0x10839, .one .cn), (0x1083c, .one .lo), (0x1083d, .one .cn), (0x1083f, .one .lo),
  (0x10856, .one .cn), (0x10857, .one .po), (0x10858, .one .no), (0x10860, .one .lo),
  (0x10877, .one .so), (0x10879, .one .no), (0x10880, .one .lo), (0x1089f, .one .cn),
  (0x108a7, .one .no), (0x108b0, .one .cn), (0x108e0, .one .lo), (0x108f3, .one .cn),
  (0x108f4, .one .lo), (0x108f6, .one .cn), (0x108fb, .one .no), (0x10900, .one .lo),
  (0x10916, .one .no), (0x1091c, .one .cn), (0x1091f, .one .po), (0x10920, .one .lo),
  (0x1093a, .one .cn), (0x1093f, .one .po), (0x10940, .one .cn), (0x10980, .one .lo),
  (0x109b8, .one .cn), (0x109bc, .one .no), (0x109be, .one .lo), (0x109c0, .one .no),
  (0x109d0, .one .cn), (0x109d2, .one .no), (0x10a00, .one .lo), (0x10a01, .one .mn),
  (0x10a04, .one .cn), (0x10a05, .one .mn), (0x10a07, .one .cn), (0x10a0c, .one .mn),
  (0x10a10, .one .lo), (0x10a14, .one .cn), (0x10a15, .one .lo), (0x10a18, .one .cn),
  (0x10a19, .one .lo), (0x10a36, .one .cn), (0x10a38, .one .mn), (0x10a3b, .one .cn),
  (0x10a3f, .one .mn), (0x10a40, .one .no), (0x10a49, .one .cn), (0x10a50, .one .po),
  (0x10a59, .one .cn), (0x10a60, .one .lo), (0x10a7d, .one .no), (0x10a7f, .one .po),
  (0x10a80, .one .lo), (0x10a9d, .one .no), (0x10aa0, .one .cn), (0x10ac0, .one .lo),
  (0x10ac8, .one .so), (0x10ac9, .one .lo), (0x10ae5, .one .mn), (0x10ae7, .one .cn),
  (0x10aeb, .one .no), (0x10af0, .one .po), (0x10af7, .one .cn), (0x10b00, .one .lo),
  (0x10b36, .one .cn), (0x10b39, .one .po), (0x10b40, .one .lo), (0x10b56, .one .cn),
  (0x10b58, .one .no), (0x10b60, .one .lo), (0x10b73, .one .cn), (0x10b78, .one .no),
  (0x10b80, .one .lo), (0x10b92, .one .cn), (0x10b99, .one .po), (0x10b9d, .one .cn),
  (0x10ba9, .one .no), (0x10bb0, .one .cn), (0x10c00, .one .lo), (0x10c49, .one .cn),
  (0x10c80, .one .lu), (0x10cb3, .one .cn), (0x10cc0, .one .ll), (0x10cf3, .one .cn),
  (0x10cfa, .one .no), (0x10d00, .one .lo), (0x10d24, .one .mn), (0x10d28, .one .cn),
  (0x10d30, .one .nd), (0x10d3a, .one .cn), (0x10e60, .one .no), (0x10e7f, .one .cn),
  (0x10e80, .one .lo), (0x10eaa, .one .cn), (0x10eab, .one .mn), (0x10ead, .one .pd),
  (0x10eae, .one .cn), (0x10eb0, .one .lo), (0x10eb2, .one .cn), (0x10efd, .one .mn),
  (0x10f00, .one .lo), (0x10f1d, .one .no), (0x10f27, .one .lo), (0x10f28, .one .cn),
  (0x10f30, .one .lo), (0x10f46, .one .mn), (0x10f51, .one .no), (0x10f55, .one .po),
  (0x10f5a, .one .cn), (0x10f70, .one .lo), (0x10f82, .one .mn), (0x10f86, .one .po),
  (0x10f8a, .one .cn), (0x10fb0, .one .lo), (0x10fc5, .one .no), (0x10fcc, .one .cn),
  (0x10fe0, .one .lo), (0x10ff7, .one .cn), (0x11000, .one .mc), (0x11001, .one .mn),
  (0x11002, .one .mc), (0x11003, .one .lo), (0x11038, .one .mn), (0x11047, .one .po),
  (0x1104e, .one .cn), (0x11052, .one .no), (0x11066, .one .nd), (0x11070, .one .mn),
  (0x11071, .one .lo), (0x11073, .one .mn), (0x11075, .one .lo), (0x11076, .one .cn),
  (0x1107f, .one .mn), (0x11082, .one .mc), (0x11083, .one .lo), (0x110b0, .one .mc),
  (0x110b3, .one .mn), (0x110b7, .one .mc), (0x110b9, .one .mn), (0x110bb, .one .po),
  (0x110bd, .one .cf), (0x110be, .one .po), (0x110c2, .one .mn), (0x110c3, .one .cn),
  (0x110cd, .one .cf), (0x110ce, .one .cn), (0x110d0, .one .lo), (0x110e9, .one .cn),
  (0x110f0, .one .nd), (0x110fa, .one .cn), (0x11100, .one .mn), (0x11103, .one .lo),
  (0x11127, .one .mn), (0x1112c, .one .mc), (0x1112d, .one .mn), (0x11135, .one .cn),
  (0x11136, .one .nd), (0x11140, .one .po), (0x11144, .one .lo), (0x11145, .one .mc),
  (0x11147, .one .lo), (0x11148, .one .cn), (0x11150, .one .lo), (0x11173, .one .mn),
  (0x11174, .one .po), (0x11176, .one .lo), (0x11177, .one .cn), (0x11180, .one .mn),
  (0x11182, .one .mc), (0x11183, .one .lo), (0x111b3, .one .mc), (0x111b6, .one .mn),
  (0x111bf, .one .mc), (0x111c1, .one .lo), (0x111c5, .one .po), (0x111c9, .one .mn),
  (0x111cd, .one .po), (0x111ce, .one .mc), (0x111cf, .one .mn), (0x111d0, .one .nd),
  (0x111da, .one .lo), (0x111db, .one .po), (0x111dc, .one .lo), (0x111dd, .one .po),
  (0x111e0, .one .cn), (0x111e1, .one .no), (0x111f5, .one .cn), (0x11200, .one .lo),
  (0x11212, .one .cn), (0x11213, .one .lo), (0x1122c, .one .mc), (0x1122f, .one .mn),
  (0x11232, .one .mc), (0x11234, .one .mn), (0x11235, .one .mc), (0x11236, .one .mn),
  (0x11238, .one .po), (0x1123e, .one .mn)]

private def categoryRuns9 : Array (Nat × CategoryRun) := #[
  (0x1123f, .one .lo), (0x11241, .one .mn), (0x11242, .one .cn), (0x11280, .one .lo),
  (0x11287, .one .cn), (0x11288, .one .lo), (0x11289, .one .cn), (0x1128a, .one .lo),
  (0x1128e, .one .cn), (0x1128f, .one .lo), (0x1129e, .one .cn), (0x1129f, .one .lo),
  (0x112a9, .one .po), (0x112aa, .one .cn), (0x112b0, .one .lo), (0x112df, .one .mn),
  (0x112e0, .one .mc), (0x112e3, .one .mn), (0x112eb, .one .cn), (0x112f0, .one .nd),
  (0x112fa, .one .cn), (0x11300, .one .mn), (0x11302, .one .mc), (0x11304, .one .cn),
  (0x11305, .one .lo), (0x1130d, .one .cn), (0x1130f, .one .lo), (0x11311, .one .cn),
  (0x11313, .one .lo), (0x11329, .one .cn), (0x1132a, .one .lo), (0x11331, .one .cn),
  (0x11332, .one .lo), (0x11334, .one .cn), (0x11335, .one .lo), (0x1133a, .one .cn),
  (0x1133b, .one .mn), (0x1133d, .one .lo), (0x1133e, .one .mc), (0x11340, .one .mn),
  (0x11341, .one .mc), (0x11345, .one .cn), (0x11347, .one .mc), (0x11349, .one .cn),
  (0x1134b, .one .mc), (0x1134e, .one .cn), (0x11350, .one .lo), (0x11351, .one .cn),
  (0x11357, .one .mc), (0x11358, .one .cn), (0x1135d, .one .lo), (0x11362, .one .mc),
  (0x11364, .one .cn), (0x11366, .one .mn), (0x1136d, .one .cn), (0x11370, .one .mn),
  (0x11375, .one .cn), (0x11400, .one .lo), (0x11435, .one .mc), (0x11438, .one .mn),
  (0x11440, .one .mc), (0x11442, .one .mn), (0x11445, .one .mc), (0x11446, .one .mn),
  (0x11447, .one .lo), (0x1144b, .one .po), (0x11450, .one .nd), (0x1145a, .one .po),
  (0x1145c, .one .cn), (0x1145d, .one .po), (0x1145e, .one .mn), (0x1145f, .one .lo),
  (0x11462, .one .cn), (0x11480, .one .lo), (0x114b0, .one .mc), (0x114b3, .one .mn),
  (0x114b9, .one .mc), (0x114ba, .one .mn), (0x114bb, .one .mc), (0x114bf, .one .mn),
  (0x114c1, .one .mc), (0x114c2, .one .mn), (0x114c4, .one .lo), (0x114c6, .one .po),
  (0x114c7, .one .lo), (0x114c8, .one .cn), (0x114d0, .one .nd), (0x114da, .one .cn),
  (0x11580, .one .lo), (0x115af, .one .mc), (0x115b2, .one .mn), (0x115b6, .one .cn),
  (0x115b8, .one .mc), (0x115bc, .one .mn), (0x115be, .one .mc), (0x115bf, .one .mn),
  (0x115c1, .one .po), (0x115d8, .one .lo), (0x115dc, .one .mn), (0x115de, .one .cn),
  (0x11600, .one .lo), (0x11630, .one .mc), (0x11633, .one .mn), (0x1163b, .one .mc),
  (0x1163d, .one .mn), (0x1163e, .one .mc), (0x1163f, .one .mn), (0x11641, .one .po),
  (0x11644, .one .lo), (0x11645, .one .cn), (0x11650, .one .nd), (0x1165a, .one .cn),
  (0x11660, .one .po), (0x1166d, .one .cn), (0x11680, .one .lo), (0x116ab, .one .mn),
  (0x116ac, .one .mc), (0x116ad, .one .mn), (0x116ae, .one .mc), (0x116b0, .one .mn),
  (0x116b6, .one .mc), (0x116b7, .one .mn), (0x116b8, .one .lo), (0x116b9, .one .po),
  (0x116ba, .one .cn), (0x116c0, .one .nd), (0x116ca, .one .cn), (0x11700, .one .lo),
  (0x1171b, .one .cn), (0x1171d, .one .mn), (0x11720, .one .mc), (0x11722, .one .mn),
  (0x11726, .one .mc), (0x11727, .one .mn), (0x1172c, .one .cn), (0x11730, .one .nd),
  (0x1173a, .one .no), (0x1173c, .one .po), (0x1173f, .one .so), (0x11740, .one .lo),
  (0x11747, .one .cn), (0x11800, .one .lo), (0x1182c, .one .mc), (0x1182f, .one .mn),
  (0x11838, .one .mc), (0x11839, .one .mn), (0x1183b, .one .po), (0x1183c, .one .cn),
  (0x118a0, .one .lu), (0x118c0, .one .ll), (0x118e0, .one .nd), (0x118ea, .one .no),
  (0x118f3, .one .cn), (0x118ff, .one .lo), (0x11907, .one .cn), (0x11909, .one .lo),
  (0x1190a, .one .cn), (0x1190c, .one .lo), (0x11914, .one .cn), (0x11915, .one .lo),
  (0x11917, .one .cn), (0x11918, .one .lo), (0x11930, .one .mc), (0x11936, .one .cn),
  (0x11937, .one .mc), (0x11939, .one .cn), (0x1193b, .one .mn), (0x1193d, .one .mc),
  (0x1193e, .one .mn), (0x1193f, .one .lo), (0x11940, .one .mc), (0x11941, .one .lo),
  (0x11942, .one .mc), (0x11943, .one .mn), (0x11944, .one .po), (0x11947, .one .cn),
  (0x11950, .one .nd), (0x1195a, .one .cn), (0x119a0, .one .lo), (0x119a8, .one .cn),
  (0x119aa, .one .lo), (0x119d1, .one .mc), (0x119d4, .one .mn), (0x119d8, .one .cn),
  (0x119da, .one .mn), (0x119dc, .one .mc), (0x119e0, .one .mn), (0x119e1, .one .lo),
  (0x119e2, .one .po), (0x119e3, .one .lo), (0x119e4, .one .mc), (0x119e5, .one .cn),
  (0x11a00, .one .lo), (0x11a01, .one .mn), (0x11a0b, .one .lo), (0x11a33, .one .mn),
  (0x11a39, .one .mc), (0x11a3a, .one .lo), (0x11a3b, .one .mn), (0x11a3f, .one .po),
  (0x11a47, .one .mn), (0x11a48, .one .cn), (0x11a50, .one .lo), (0x11a51, .one .mn),
  (0x11a57, .one .mc), (0x11a59, .one .mn), (0x11a5c, .one .lo), (0x11a8a, .one .mn),
  (0x11a97, .one .mc), (0x11a98, .one .mn), (0x11a9a, .one .po), (0x11a9d, .one .lo),
  (0x11a9e, .one .po), (0x11aa3, .one .cn), (0x11ab0, .one .lo), (0x11af9, .one .cn),
  (0x11b00, .one .po), (0x11b0a, .one .cn), (0x11c00, .one .lo), (0x11c09, .one .cn),
  (0x11c0a, .one .lo), (0x11c2f, .one .mc), (0x11c30, .one .mn), (0x11c37, .one .cn),
  (0x11c38, .one .mn), (0x11c3e, .one .mc), (0x11c3f, .one .mn), (0x11c40, .one .lo),
  (0x11c41, .one .po), (0x11c46, .one .cn), (0x11c50, .one .nd), (0x11c5a, .one .no),
  (0x11c6d, .one .cn), (0x11c70, .one .po), (0x11c72, .one .lo), (0x11c90, .one .cn),
  (0x11c92, .one .mn), (0x11ca8, .one .cn), (0x11ca9, .one .mc), (0x11caa, .one .mn),
  (0x11cb1, .one .mc), (0x11cb2, .one .mn), (0x11cb4, .one .mc), (0x11cb5, .one .mn),
  (0x11cb7, .one .cn), (0x11d00, .one .lo), (0x11d07, .one .cn), (0x11d08, .one .lo),
  (0x11d0a, .one .cn), (0x11d0b, .one .lo)]

private def categoryRuns10 : Array (Nat × CategoryRun) := #[
  (0x11d31, .one .mn), (0x11d37, .one .cn), (0x11d3a, .one .mn), (0x11d3b, .one .cn),
  (0x11d3c, .one .mn), (0x11d3e, .one .cn), (0x11d3f, .one .mn), (0x11d46, .one .lo),
  (0x11d47, .one .mn), (0x11d48, .one .cn), (0x11d50, .one .nd), (0x11d5a, .one .cn),
  (0x11d60, .one .lo), (0x11d66, .one .cn), (0x11d67, .one .lo), (0x11d69, .one .cn),
  (0x11d6a, .one .lo), (0x11d8a, .one .mc), (0x11d8f, .one .cn), (0x11d90, .one .mn),
  (0x11d92, .one .cn), (0x11d93, .one .mc), (0x11d95, .one .mn), (0x11d96, .one .mc),
  (0x11d97, .one .mn), (0x11d98, .one .lo), (0x11d99, .one .cn), (0x11da0, .one .nd),
  (0x11daa, .one .cn), (0x11ee0, .one .lo), (0x11ef3, .one .mn), (0x11ef5, .one .mc),
  (0x11ef7, .one .po), (0x11ef9, .one .cn), (0x11f00, .one .mn), (0x11f02, .one .lo),
  (0x11f03, .one .mc), (0x11f04, .one .lo), (0x11f11, .one .cn), (0x11f12, .one .lo),
  (0x11f34, .one .mc), (0x11f36, .one .mn), (0x11f3b, .one .cn), (0x11f3e, .one .mc),
  (0x11f40, .one .mn), (0x11f41, .one .mc), (0x11f42, .one .mn), (0x11f43, .one .po),
  (0x11f50, .one .nd), (0x11f5a, .one .cn), (0x11fb0, .one .lo), (0x11fb1, .one .cn),
  (0x11fc0, .one .no), (0x11fd5, .one .so), (0x11fdd, .one .sc), (0x11fe1, .one .so),
  (0x11ff2, .one .cn), (0x11fff, .one .po), (0x12000, .one .lo), (0x1239a, .one .cn),
  (0x12400, .one .nl), (0x1246f, .one .cn), (0x12470, .one .po), (0x12475, .one .cn),
  (0x12480, .one .lo), (0x12544, .one .cn), (0x12f90, .one .lo), (0x12ff1, .one .po),
  (0x12ff3, .one .cn), (0x13000, .one .lo), (0x13430, .one .cf), (0x13440, .one .mn),
  (0x13441, .one .lo), (0x13447, .one .mn), (0x13456, .one .cn), (0x14400, .one .lo),
  (0x14647, .one .cn), (0x16800, .one .lo), (0x16a39, .one .cn), (0x16a40, .one .lo),
  (0x16a5f, .one .cn), (0x16a60, .one .nd), (0x16a6a, .one .cn), (0x16a6e, .one .po),
  (0x16a70, .one .lo), (0x16abf, .one .cn), (0x16ac0, .one .nd), (0x16aca, .one .cn),
  (0x16ad0, .one .lo), (0x16aee, .one .cn), (0x16af0, .one .mn), (0x16af5, .one .po),
  (0x16af6, .one .cn), (0x16b00, .one .lo), (0x16b30, .one .mn), (0x16b37, .one .po),
  (0x16b3c, .one .so), (0x16b40, .one .lm), (0x16b44, .one .po), (0x16b45, .one .so),
  (0x16b46, .one .cn), (0x16b50, .one .nd), (0x16b5a, .one .cn), (0x16b5b, .one .no),
  (0x16b62, .one .cn), (0x16b63, .one .lo), (0x16b78, .one .cn), (0x16b7d, .one .lo),
  (0x16b90, .one .cn), (0x16e40, .one .lu), (0x16e60, .one .ll), (0x16e80, .one .no),
  (0x16e97, .one .po), (0x16e9b, .one .cn), (0x16f00, .one .lo), (0x16f4b, .one .cn),
  (0x16f4f, .one .mn), (0x16f50, .one .lo), (0x16f51, .one .mc), (0x16f88, .one .cn),
  (0x16f8f, .one .mn), (0x16f93, .one .lm), (0x16fa0, .one .cn), (0x16fe0, .one .lm),
  (0x16fe2, .one .po), (0x16fe3, .one .lm), (0x16fe4, .one .mn), (0x16fe5, .one .cn),
  (0x16ff0, .one .mc), (0x16ff2, .one .cn), (0x17000, .one .lo), (0x187f8, .one .cn),
  (0x18800, .one .lo), (0x18cd6, .one .cn), (0x18d00, .one .lo), (0x18d09, .one .cn),
  (0x1aff0, .one .lm), (0x1aff4, .one .cn), (0x1aff5, .one .lm), (0x1affc, .one .cn),
  (0x1affd, .one .lm), (0x1afff, .one .cn), (0x1b000, .one .lo), (0x1b123, .one .cn),
  (0x1b132, .one .lo), (0x1b133, .one .cn), (0x1b150, .one .lo), (0x1b153, .one .cn),
  (0x1b155, .one .lo), (0x1b156, .one .cn), (0x1b164, .one .lo), (0x1b168, .one .cn),
  (0x1b170, .one .lo), (0x1b2fc, .one .cn), (0x1bc00, .one .lo), (0x1bc6b, .one .cn),
  (0x1bc70, .one .lo), (0x1bc7d, .one .cn), (0x1bc80, .one .lo), (0x1bc89, .one .cn),
  (0x1bc90, .one .lo), (0x1bc9a, .one .cn), (0x1bc9c, .one .so), (0x1bc9d, .one .mn),
  (0x1bc9f, .one .po), (0x1bca0, .one .cf), (0x1bca4, .one .cn), (0x1cf00, .one .mn),
  (0x1cf2e, .one .cn), (0x1cf30, .one .mn), (0x1cf47, .one .cn), (0x1cf50, .one .so),
  (0x1cfc4, .one .cn), (0x1d000, .one .so), (0x1d0f6, .one .cn), (0x1d100, .one .so),
  (0x1d127, .one .cn), (0x1d129, .one .so), (0x1d165, .one .mc), (0x1d167, .one .mn),
  (0x1d16a, .one .so), (0x1d16d, .one .mc), (0x1d173, .one .cf), (0x1d17b, .one .mn),
  (0x1d183, .one .so), (0x1d185, .one .mn), (0x1d18c, .one .so), (0x1d1aa, .one .mn),
  (0x1d1ae, .one .so), (0x1d1eb, .one .cn), (0x1d200, .one .so), (0x1d242, .one .mn),
  (0x1d245, .one .so), (0x1d246, .one .cn), (0x1d2c0, .one .no), (0x1d2d4, .one .cn),
  (0x1d2e0, .one .no), (0x1d2f4, .one .cn), (0x1d300, .one .so), (0x1d357, .one .cn),
  (0x1d360, .one .no), (0x1d379, .one .cn), (0x1d400, .one .lu), (0x1d41a, .one .ll),
  (0x1d434, .one .lu), (0x1d44e, .one .ll), (0x1d455, .one .cn), (0x1d456, .one .ll),
  (0x1d468, .one .lu), (0x1d482, .one .ll), (0x1d49c, .one .lu), (0x1d49d, .one .cn),
  (0x1d49e, .one .lu), (0x1d4a0, .one .cn), (0x1d4a2, .one .lu), (0x1d4a3, .one .cn),
  (0x1d4a5, .one .lu), (0x1d4a7, .one .cn), (0x1d4a9, .one .lu), (0x1d4ad, .one .cn),
  (0x1d4ae, .one .lu), (0x1d4b6, .one .ll), (0x1d4ba, .one .cn), (0x1d4bb, .one .ll),
  (0x1d4bc, .one .cn), (0x1d4bd, .one .ll), (0x1d4c4, .one .cn), (0x1d4c5, .one .ll),
  (0x1d4d0, .one .lu), (0x1d4ea, .one .ll), (0x1d504, .one .lu), (0x1d506, .one .cn),
  (0x1d507, .one .lu), (0x1d50b, .one .cn), (0x1d50d, .one .lu), (0x1d515, .one .cn),
  (0x1d516, .one .lu), (0x1d51d, .one .cn), (0x1d51e, .one .ll), (0x1d538, .one .lu),
  (0x1d53a, .one .cn), (0x1d53b, .one .lu), (0x1d53f, .one .cn), (0x1d540, .one .lu),
  (0x1d545, .one .cn), (0x1d546, .one .lu), (0x1d547, .one .cn), (0x1d54a, .one .lu),
  (0x1d551, .one .cn), (0x1d552, .one .ll)]

private def categoryRuns11 : Array (Nat × CategoryRun) := #[
  (0x1d56c, .one .lu), (0x1d586, .one .ll), (0x1d5a0, .one .lu), (0x1d5ba, .one .ll),
  (0x1d5d4, .one .lu), (0x1d5ee, .one .ll), (0x1d608, .one .lu), (0x1d622, .one .ll),
  (0x1d63c, .one .lu), (0x1d656, .one .ll), (0x1d670, .one .lu), (0x1d68a, .one .ll),
  (0x1d6a6, .one .cn), (0x1d6a8, .one .lu), (0x1d6c1, .one .sm), (0x1d6c2, .one .ll),
  (0x1d6db, .one .sm), (0x1d6dc, .one .ll), (0x1d6e2, .one .lu), (0x1d6fb, .one .sm),
  (0x1d6fc, .one .ll), (0x1d715, .one .sm), (0x1d716, .one .ll), (0x1d71c, .one .lu),
  (0x1d735, .one .sm), (0x1d736, .one .ll), (0x1d74f, .one .sm), (0x1d750, .one .ll),
  (0x1d756, .one .lu), (0x1d76f, .one .sm), (0x1d770, .one .ll), (0x1d789, .one .sm),
  (0x1d78a, .one .ll), (0x1d790, .one .lu), (0x1d7a9, .one .sm), (0x1d7aa, .one .ll),
  (0x1d7c3, .one .sm), (0x1d7c4, .one .ll), (0x1d7ca, .one .lu), (0x1d7cb, .one .ll),
  (0x1d7cc, .one .cn), (0x1d7ce, .one .nd), (0x1d800, .one .so), (0x1da00, .one .mn),
  (0x1da37, .one .so), (0x1da3b, .one .mn), (0x1da6d, .one .so), (0x1da75, .one .mn),
  (0x1da76, .one .so), (0x1da84, .one .mn), (0x1da85, .one .so), (0x1da87, .one .po),
  (0x1da8c, .one .cn), (0x1da9b, .one .mn), (0x1daa0, .one .cn), (0x1daa1, .one .mn),
  (0x1dab0, .one .cn), (0x1df00, .one .ll), (0x1df0a, .one .lo), (0x1df0b, .one .ll),
  (0x1df1f, .one .cn), (0x1df25, .one .ll), (0x1df2b, .one .cn), (0x1e000, .one .mn),
  (0x1e007, .one .cn), (0x1e008, .one .mn), (0x1e019, .one .cn), (0x1e01b, .one .mn),
  (0x1e022, .one .cn), (0x1e023, .one .mn), (0x1e025, .one .cn), (0x1e026, .one .mn),
  (0x1e02b, .one .cn), (0x1e030, .one .lm), (0x1e06e, .one .cn), (0x1e08f, .one .mn),
  (0x1e090, .one .cn), (0x1e100, .one .lo), (0x1e12d, .one .cn), (0x1e130, .one .mn),
  (0x1e137, .one .lm), (0x1e13e, .one .cn), (0x1e140, .one .nd), (0x1e14a, .one .cn),
  (0x1e14e, .one .lo), (0x1e14f, .one .so), (0x1e150, .one .cn), (0x1e290, .one .lo),
  (0x1e2ae, .one .mn), (0x1e2af, .one .cn), (0x1e2c0, .one .lo), (0x1e2ec, .one .mn),
  (0x1e2f0, .one .nd), (0x1e2fa, .one .cn), (0x1e2ff, .one .sc), (0x1e300, .one .cn),
  (0x1e4d0, .one .lo), (0x1e4eb, .one .lm), (0x1e4ec, .one .mn), (0x1e4f0, .one .nd),
  (0x1e4fa, .one .cn), (0x1e7e0, .one .lo), (0x1e7e7, .one .cn), (0x1e7e8, .one .lo),
  (0x1e7ec, .one .cn), (0x1e7ed, .one .lo), (0x1e7ef, .one .cn), (0x1e7f0, .one .lo),
  (0x1e7ff, .one .cn), (0x1e800, .one .lo), (0x1e8c5, .one .cn), (0x1e8c7, .one .no),
  (0x1e8d0, .one .mn), (0x1e8d7, .one .cn), (0x1e900, .one .lu), (0x1e922, .one .ll),
  (0x1e944, .one .mn), (0x1e94b, .one .lm), (0x1e94c, .one .cn), (0x1e950, .one .nd),
  (0x1e95a, .one .cn), (0x1e95e, .one .po), (0x1e960, .one .cn), (0x1ec71, .one .no),
  (0x1ecac, .one .so), (0x1ecad, .one .no), (0x1ecb0, .one .sc), (0x1ecb1, .one .no),
  (0x1ecb5, .one .cn), (0x1ed01, .one .no), (0x1ed2e, .one .so), (0x1ed2f, .one .no),
  (0x1ed3e, .one .cn), (0x1ee00, .one .lo), (0x1ee04, .one .cn), (0x1ee05, .one .lo),
  (0x1ee20, .one .cn), (0x1ee21, .one .lo), (0x1ee23, .one .cn), (0x1ee24, .one .lo),
  (0x1ee25, .one .cn), (0x1ee27, .one .lo), (0x1ee28, .one .cn), (0x1ee29, .one .lo),
  (0x1ee33, .one .cn), (0x1ee34, .one .lo), (0x1ee38, .one .cn), (0x1ee39, .one .lo),
  (0x1ee3a, .one .cn), (0x1ee3b, .one .lo), (0x1ee3c, .one .cn), (0x1ee42, .one .lo),
  (0x1ee43, .one .cn), (0x1ee47, .one .lo), (0x1ee48, .one .cn), (0x1ee49, .one .lo),
  (0x1ee4a, .one .cn), (0x1ee4b, .one .lo), (0x1ee4c, .one .cn), (0x1ee4d, .one .lo),
  (0x1ee50, .one .cn), (0x1ee51, .one .lo), (0x1ee53, .one .cn), (0x1ee54, .one .lo),
  (0x1ee55, .one .cn), (0x1ee57, .one .lo), (0x1ee58, .one .cn), (0x1ee59, .one .lo),
  (0x1ee5a, .one .cn), (0x1ee5b, .one .lo), (0x1ee5c, .one .cn), (0x1ee5d, .one .lo),
  (0x1ee5e, .one .cn), (0x1ee5f, .one .lo), (0x1ee60, .one .cn), (0x1ee61, .one .lo),
  (0x1ee63, .one .cn), (0x1ee64, .one .lo), (0x1ee65, .one .cn), (0x1ee67, .one .lo),
  (0x1ee6b, .one .cn), (0x1ee6c, .one .lo), (0x1ee73, .one .cn), (0x1ee74, .one .lo),
  (0x1ee78, .one .cn), (0x1ee79, .one .lo), (0x1ee7d, .one .cn), (0x1ee7e, .one .lo),
  (0x1ee7f, .one .cn), (0x1ee80, .one .lo), (0x1ee8a, .one .cn), (0x1ee8b, .one .lo),
  (0x1ee9c, .one .cn), (0x1eea1, .one .lo), (0x1eea4, .one .cn), (0x1eea5, .one .lo),
  (0x1eeaa, .one .cn), (0x1eeab, .one .lo), (0x1eebc, .one .cn), (0x1eef0, .one .sm),
  (0x1eef2, .one .cn), (0x1f000, .one .so), (0x1f02c, .one .cn), (0x1f030, .one .so),
  (0x1f094, .one .cn), (0x1f0a0, .one .so), (0x1f0af, .one .cn), (0x1f0b1, .one .so),
  (0x1f0c0, .one .cn), (0x1f0c1, .one .so), (0x1f0d0, .one .cn), (0x1f0d1, .one .so),
  (0x1f0f6, .one .cn), (0x1f100, .one .no), (0x1f10d, .one .so), (0x1f1ae, .one .cn),
  (0x1f1e6, .one .so), (0x1f203, .one .cn), (0x1f210, .one .so), (0x1f23c, .one .cn),
  (0x1f240, .one .so), (0x1f249, .one .cn), (0x1f250, .one .so), (0x1f252, .one .cn),
  (0x1f260, .one .so), (0x1f266, .one .cn), (0x1f300, .one .so), (0x1f3fb, .one .sk),
  (0x1f400, .one .so), (0x1f6d8, .one .cn), (0x1f6dc, .one .so), (0x1f6ed, .one .cn),
  (0x1f6f0, .one .so), (0x1f6fd, .one .cn), (0x1f700, .one .so), (0x1f777, .one .cn),
  (0x1f77b, .one .so), (0x1f7da, .one .cn), (0x1f7e0, .one .so), (0x1f7ec, .one .cn),
  (0x1f7f0, .one .so), (0x1f7f1, .one .cn), (0x1f800, .one .so), (0x1f80c, .one .cn),
  (0x1f810, .one .so), (0x1f848, .one .cn), (0x1f850, .one .so), (0x1f85a, .one .cn),
  (0x1f860, .one .so), (0x1f888, .one .cn)]

private def categoryRuns12 : Array (Nat × CategoryRun) := #[
  (0x1f890, .one .so), (0x1f8ae, .one .cn), (0x1f8b0, .one .so), (0x1f8b2, .one .cn),
  (0x1f900, .one .so), (0x1fa54, .one .cn), (0x1fa60, .one .so), (0x1fa6e, .one .cn),
  (0x1fa70, .one .so), (0x1fa7d, .one .cn), (0x1fa80, .one .so), (0x1fa89, .one .cn),
  (0x1fa90, .one .so), (0x1fabe, .one .cn), (0x1fabf, .one .so), (0x1fac6, .one .cn),
  (0x1face, .one .so), (0x1fadc, .one .cn), (0x1fae0, .one .so), (0x1fae9, .one .cn),
  (0x1faf0, .one .so), (0x1faf9, .one .cn), (0x1fb00, .one .so), (0x1fb93, .one .cn),
  (0x1fb94, .one .so), (0x1fbcb, .one .cn), (0x1fbf0, .one .nd), (0x1fbfa, .one .cn),
  (0x20000, .one .lo), (0x2a6e0, .one .cn), (0x2a700, .one .lo), (0x2b73a, .one .cn),
  (0x2b740, .one .lo), (0x2b81e, .one .cn), (0x2b820, .one .lo), (0x2cea2, .one .cn),
  (0x2ceb0, .one .lo), (0x2ebe1, .one .cn), (0x2f800, .one .lo), (0x2fa1e, .one .cn),
  (0x30000, .one .lo), (0x3134b, .one .cn), (0x31350, .one .lo), (0x323b0, .one .cn),
  (0xe0001, .one .cf), (0xe0002, .one .cn), (0xe0020, .one .cf), (0xe0080, .one .cn),
  (0xe0100, .one .mn), (0xe01f0, .one .cn), (0xf0000, .one .co), (0xffffe, .one .cn),
  (0x100000, .one .co), (0x10fffe, .one .cn), (0x110000, .one .cn)]

/-- Where each run starts. A run ends where the next one starts. -/
def categoryRuns : Array (Nat × CategoryRun) :=
  categoryRuns0 ++ categoryRuns1 ++ categoryRuns2 ++ categoryRuns3 ++ categoryRuns4 ++
    categoryRuns5 ++ categoryRuns6 ++ categoryRuns7 ++ categoryRuns8 ++ categoryRuns9 ++
    categoryRuns10 ++ categoryRuns11 ++ categoryRuns12

def categoryOf (code : Nat) : GeneralCategory :=
  match floorEntry categoryRuns code with
  | some (_, .one category) => category
  | some (start, .paired) => if (code - start) % 2 = 0 then .lu else .ll
  | none => .cn

end SyntaxHighlight.Unicode
