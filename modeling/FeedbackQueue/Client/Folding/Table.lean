/-!
# Table of folded forms

The code points of Unicode 3.2 whose folded form is another text, and those in
upper case that came after it. A row describes a code point and those that follow
it, one entry after the other, all in hexadecimal:

* `a.b` is the folded form, of as many code points as there are numbers;
* `_` stands for a form without code points, and `_*n` for `n` of them;
* `=` stands for a code point that is its own form;
* `a*n` stands for `n` code points with the forms `a`, `a + 1` and so on;
* `a/n` stands for `2 * n - 1` code points, of which every other one is its own
  form, and the first, third and so on have the forms `a`, `a + 2` and so on.
-/

namespace FeedbackQueue.Client.Folding

def table : List (Nat × String) := [
  (0x41, "61*1a"), (0xa0, "20"),
  (0xa8, "20.308 = 61 = = _ = 20.304 = = 32*2 20.301 3bc = = 20.327 31 6f = 31.2044.34"),
  (0xbd, "31.2044.32 33.2044.34 = e0*17 = f8*7 73.73"),
  (0x100, "101/18 = 69.307 = 69.6a 69.6a 135/2 = = 13a/3 = 6c.b7 6c.b7 142/4 = 2bc.6e"),
  (0x14a, "14b/17 = ff 17a/3 = 73 = 253 183/2 = 254 188 = 256*2 18c = = 1dd 259 25b 192 ="),
  (0x193, "260 263 = 269 268 199 = = = 26f 272 = 275 1a1/3 = 280 1a8 = 283 = = 1ad = 288"),
  (0x1af, "1b0 = 28a*2 1b4/2 = 292 1b9 = = = 1bd"),
  (0x1c4, "64.17e 64.17e 64.17e 6c.6a 6c.6a 6c.6a 6e.6a 6e.6a 6e.6a 1ce/8 = = 1df/9 = ="),
  (0x1f1, "64.7a 64.7a 64.7a 1f5 = 195 1bf 1f9/14 = 19e = 223/9"),
  (0x23a, "2c65 23c = 19a 2c66 = = 242 = 180 289 28c 247/5"),
  (0x2b0, "68 266 6a 72 279 27b 281 77 79"),
  (0x2d8, "20.306 20.307 20.30a 20.328 20.303 20.30b = = 263 6c 73 78 295"),
  (0x340, "300*2 = 313 308.301 3b9"), (0x34f, "_"),
  (0x370, "371/2 = 2b9 = 377 = = = 20.3b9 = = = 3b 3f3"),
  (0x384, "20.301 20.308.301 3ac b7 3ad*3 = 3cc = 3cd*2 = 3b1*11 = 3c3*9"), (0x3c2, "3c3"),
  (0x3cf, "3d7 3b2 3b8 3c5 3cd 3cb 3c6 3c0 = 3d9/c = 3ba 3c1 3c3 = 3b8 3b5 = 3f8 = 3c3"),
  (0x3fa, "3fb = = 37b*3 450*10 430*20"), (0x460, "461/11"),
  (0x48a, "48b/1b = 4cf 4c2/7 = = 4d1/30 = = 561*26"), (0x587, "565.582"),
  (0x675, "627.674 648.674 6c7.674 64a.674"),
  (0x958, "915.93c 916.93c 917.93c 91c.93c 921.93c 922.93c 92b.93c 92f.93c"),
  (0x9dc, "9a1.9bc 9a2.9bc = 9af.9bc"), (0xa33, "a32.a3c = = a38.a3c"),
  (0xa59, "a16.a3c a17.a3c a1c.a3c = = a2b.a3c"), (0xb5c, "b21.b3c b22.b3c"), (0xe33, "e4d.e32"),
  (0xeb3, "ecd.eb2"), (0xedc, "eab.e99 eab.ea1"), (0xf0c, "f0b"), (0xf43, "f42.fb7"),
  (0xf4d, "f4c.fb7"), (0xf52, "f51.fb7"), (0xf57, "f56.fb7"), (0xf5c, "f5b.fb7"),
  (0xf69, "f40.fb5"), (0xf73, "f71.f72 = f71.f74 fb2.f80 fb2.f71.f80 fb3.f80 fb3.f71.f80"),
  (0xf81, "f71.f80"), (0xf93, "f92.fb7"), (0xf9d, "f9c.fb7"), (0xfa2, "fa1.fb7"),
  (0xfa7, "fa6.fb7"), (0xfac, "fab.fb7"), (0xfb9, "f90.fb5"), (0x10a0, "2d00*26 = 2d27"),
  (0x10cd, "2d2d"), (0x13a0, "ab70*50 13f8*6"), (0x1806, "_"), (0x180b, "_*3"),
  (0x1c90, "10d0*2b = = 10fd*3"), (0x1e00, "1e01/4b"),
  (0x1e9a, "61.2be 1e61 = = 73.73 = 1ea1/30"), (0x1f08, "1f00*8"), (0x1f18, "1f10*6"),
  (0x1f28, "1f20*8"), (0x1f38, "1f30*8"), (0x1f48, "1f40*6"), (0x1f59, "1f51/4"),
  (0x1f68, "1f60*8 = 3ac = 3ad = 3ae = 3af = 3cc = 3cd = 3ce = = 1f00.3b9 1f01.3b9"),
  (0x1f82, "1f02.3b9 1f03.3b9 1f04.3b9 1f05.3b9 1f06.3b9 1f07.3b9 1f00.3b9 1f01.3b9"),
  (0x1f8a, "1f02.3b9 1f03.3b9 1f04.3b9 1f05.3b9 1f06.3b9 1f07.3b9 1f20.3b9 1f21.3b9"),
  (0x1f92, "1f22.3b9 1f23.3b9 1f24.3b9 1f25.3b9 1f26.3b9 1f27.3b9 1f20.3b9 1f21.3b9"),
  (0x1f9a, "1f22.3b9 1f23.3b9 1f24.3b9 1f25.3b9 1f26.3b9 1f27.3b9 1f60.3b9 1f61.3b9"),
  (0x1fa2, "1f62.3b9 1f63.3b9 1f64.3b9 1f65.3b9 1f66.3b9 1f67.3b9 1f60.3b9 1f61.3b9"),
  (0x1faa, "1f62.3b9 1f63.3b9 1f64.3b9 1f65.3b9 1f66.3b9 1f67.3b9 = = 1f70.3b9 3b1.3b9"),
  (0x1fb4, "3ac.3b9 = = 1fb6.3b9 1fb0*2 1f70 3ac 3b1.3b9 20.313 3b9 20.313 20.342"),
  (0x1fc1, "20.308.342 1f74.3b9 3b7.3b9 3ae.3b9 = = 1fc6.3b9 1f72 3ad 1f74 3ae 3b7.3b9"),
  (0x1fcd, "20.313.300 20.313.301 20.313.342 = = = 390"),
  (0x1fd8, "1fd0*2 1f76 3af = 20.314.300 20.314.301 20.314.342 = = = 3b0"),
  (0x1fe8, "1fe0*2 1f7a 3cd 1fe5 20.308.300 20.308.301 60 = = 1f7c.3b9 3c9.3b9 3ce.3b9 = ="),
  (0x1ff7, "1ff6.3b9 1f78 3cc 1f7c 3ce 3c9.3b9 20.301 20.314 = 20 20 20 20 20 20 20 20 20"),
  (0x2009, "20 20 _*3 = = = 2010"), (0x2017, "20.333"), (0x2024, "2e 2e.2e 2e.2e.2e"),
  (0x202f, "20 = = = 2032.2032 2032.2032.2032 = 2035.2035 2035.2035.2035"),
  (0x203c, "21.21 = 20.305"), (0x2047, "3f.3f 3f.21 21.3f"), (0x2057, "2032.2032.2032.2032"),
  (0x205f, "20 _"), (0x2070, "30 69 = = 34*6 2b 2212 3d 28*2 6e 30*a 2b 2212 3d 28*2"),
  (0x20a8, "72.73"),
  (0x2100, "61.2f.63 61.2f.73 63 b0.63 = 63.2f.6f 63.2f.75 25b = b0.66 67*2 68 68 68 127"),
  (0x2110, "69 69 6c 6c/2 6e.6f = = 70*3 72 72 = = 73.6d 74.65.6c 74.6d = 7a = 3c9 = 7a ="),
  (0x212a, "6b e5 62*2 = 65 65*2 214e 6d 6f 5d0*4 69 = = = 3b3 3b3 3c0 2211"),
  (0x2145, "64 64*2 69*2"),
  (0x2153, "31.2044.33 32.2044.33 31.2044.35 32.2044.35 33.2044.35 34.2044.35 31.2044.36"),
  (0x215a, "35.2044.36 31.2044.38 33.2044.38 35.2044.38 37.2044.38 31.2044 69 69.69"),
  (0x2162, "69.69.69 69.76 76 76.69 76.69.69 76.69.69.69 69.78 78 78.69 78.69.69 6c 63*2"),
  (0x216f, "6d 69 69.69 69.69.69 69.76 76 76.69 76.69.69 76.69.69.69 69.78 78 78.69"),
  (0x217b, "78.69.69 6c 63*2 6d = = = 2184"),
  (0x222c, "222b.222b 222b.222b.222b = 222e.222e 222e.222e.222e"), (0x2329, "3008*2"),
  (0x2460, "31*9 31.30 31.31 31.32 31.33 31.34 31.35 31.36 31.37 31.38 31.39 32.30"),
  (0x2474, "28.31.29 28.32.29 28.33.29 28.34.29 28.35.29 28.36.29 28.37.29 28.38.29"),
  (0x247c, "28.39.29 28.31.30.29 28.31.31.29 28.31.32.29 28.31.33.29 28.31.34.29"),
  (0x2482, "28.31.35.29 28.31.36.29 28.31.37.29 28.31.38.29 28.31.39.29 28.32.30.29 31.2e"),
  (0x2489, "32.2e 33.2e 34.2e 35.2e 36.2e 37.2e 38.2e 39.2e 31.30.2e 31.31.2e 31.32.2e"),
  (0x2494, "31.33.2e 31.34.2e 31.35.2e 31.36.2e 31.37.2e 31.38.2e 31.39.2e 32.30.2e"),
  (0x249c, "28.61.29 28.62.29 28.63.29 28.64.29 28.65.29 28.66.29 28.67.29 28.68.29"),
  (0x24a4, "28.69.29 28.6a.29 28.6b.29 28.6c.29 28.6d.29 28.6e.29 28.6f.29 28.70.29"),
  (0x24ac, "28.71.29 28.72.29 28.73.29 28.74.29 28.75.29 28.76.29 28.77.29 28.78.29"),
  (0x24b4, "28.79.29 28.7a.29 61*1a 61*1a 30"), (0x2a0c, "222b.222b.222b.222b"),
  (0x2a74, "3a.3a.3d 3d.3d 3d.3d.3d"), (0x2adc, "2add.338"), (0x2c00, "2c30*30"),
  (0x2c60, "2c61 = 26b 1d7d 27d = = 2c68/3 = 251 271 250 252 = 2c73 = = 2c76"),
  (0x2c7e, "23f*2 2c81/32"), (0x2ceb, "2cec/2"), (0x2cf2, "2cf3"), (0x2e9f, "6bcd"),
  (0x2ef3, "9f9f"),
  (0x2f00, "4e00 4e28 4e36 4e3f 4e59 4e85 4e8c 4ea0 4eba 513f 5165 516b 5182 5196 51ab"),
  (0x2f0f, "51e0 51f5 5200 529b 52f9 5315 531a 5338 5341 535c 5369 5382 53b6 53c8 53e3"),
  (0x2f1e, "56d7 571f 58eb 5902 590a 5915 5927 5973 5b50 5b80 5bf8 5c0f 5c22 5c38 5c6e"),
  (0x2f2d, "5c71 5ddb 5de5 5df1 5dfe 5e72 5e7a 5e7f 5ef4 5efe 5f0b 5f13 5f50 5f61 5f73"),
  (0x2f3c, "5fc3 6208 6236 624b 652f 6534 6587 6597 65a4 65b9 65e0 65e5 66f0 6708 6728"),
  (0x2f4b, "6b20 6b62 6b79 6bb3 6bcb 6bd4 6bdb 6c0f 6c14 6c34 706b 722a 7236 723b 723f"),
  (0x2f5a, "7247 7259 725b 72ac 7384 7389 74dc 74e6 7518 751f 7528 7530 758b 7592 7676"),
  (0x2f69, "767d 76ae 76bf 76ee 77db 77e2 77f3 793a 79b8 79be 7a74 7acb 7af9 7c73 7cf8"),
  (0x2f78, "7f36 7f51 7f8a 7fbd 8001 800c 8012 8033 807f 8089 81e3 81ea 81f3 81fc 820c"),
  (0x2f87, "821b 821f 826e 8272 8278 864d 866b 8840 884c 8863 897e 898b 89d2 8a00 8c37"),
  (0x2f96, "8c46 8c55 8c78 8c9d 8d64 8d70 8db3 8eab 8eca 8f9b 8fb0 8fb5 9091 9149 91c6"),
  (0x2fa5, "91cc 91d1 9577 9580 961c 96b6 96b9 96e8 9751 975e 9762 9769 97cb 97ed 97f3"),
  (0x2fb4, "9801 98a8 98db 98df 9996 9999 99ac 9aa8 9ad8 9adf 9b25 9b2f 9b32 9b3c 9b5a"),
  (0x2fc3, "9ce5 9e75 9e7f 9ea5 9ebb 9ec3 9ecd 9ed1 9ef9 9efd 9f0e 9f13 9f20 9f3b 9f4a"),
  (0x2fd2, "9f52 9f8d 9f9c 9fa0"), (0x3000, "20"), (0x3036, "3012 = 5341 5344*2"),
  (0x309b, "20.3099 20.309a = = 3088.308a"), (0x30ff, "30b3.30c8"),
  (0x3131, "1100*2 11aa 1102 11ac*2 1103*3 11b0*6 111a 1106*3 1121 1109*a 1161*15 1160"),
  (0x3165, "1114*2 11c7*2 11cc 11ce 11d3 11d7 11d9 111c 11dd 11df 111d*2 1120 1122*2 1127"),
  (0x3177, "1129 112b*5 1132 1136 1140 1147 114c 11f1*2 1157*3 1184*2 1188 1191*2 1194"),
  (0x318d, "119e 11a1 = = = 4e00 4e8c 4e09 56db 4e0a 4e2d 4e0b 7532 4e59 4e19 4e01 5929"),
  (0x319e, "5730 4eba"),
  (0x3200, "28.1100.29 28.1102.29 28.1103.29 28.1105.29 28.1106.29 28.1107.29 28.1109.29"),
  (0x3207, "28.110b.29 28.110c.29 28.110e.29 28.110f.29 28.1110.29 28.1111.29 28.1112.29"),
  (0x320e, "28.ac00.29 28.b098.29 28.b2e4.29 28.b77c.29 28.b9c8.29 28.bc14.29 28.c0ac.29"),
  (0x3215, "28.c544.29 28.c790.29 28.cc28.29 28.ce74.29 28.d0c0.29 28.d30c.29 28.d558.29"),
  (0x321c, "28.c8fc.29 = = = 28.4e00.29 28.4e8c.29 28.4e09.29 28.56db.29 28.4e94.29"),
  (0x3225, "28.516d.29 28.4e03.29 28.516b.29 28.4e5d.29 28.5341.29 28.6708.29 28.706b.29"),
  (0x322c, "28.6c34.29 28.6728.29 28.91d1.29 28.571f.29 28.65e5.29 28.682a.29 28.6709.29"),
  (0x3233, "28.793e.29 28.540d.29 28.7279.29 28.8ca1.29 28.795d.29 28.52b4.29 28.4ee3.29"),
  (0x323a, "28.547c.29 28.5b66.29 28.76e3.29 28.4f01.29 28.8cc7.29 28.5354.29 28.796d.29"),
  (0x3241, "28.4f11.29 28.81ea.29 28.81f3.29"),
  (0x3251, "32.31 32.32 32.33 32.34 32.35 32.36 32.37 32.38 32.39 33.30 33.31 33.32 33.33"),
  (0x325e, "33.34 33.35 1100 1102*2 1105*3 1109 110b*2 110e*5 ac00 b098 b2e4 b77c b9c8"),
  (0x3273, "bc14 c0ac c544 c790 cc28 ce74 d0c0 d30c d558"),
  (0x3280, "4e00 4e8c 4e09 56db 4e94 516d 4e03 516b 4e5d 5341 6708 706b 6c34 6728 91d1"),
  (0x328f, "571f 65e5 682a 6709 793e 540d 7279 8ca1 795d 52b4 79d8 7537 5973 9069 512a"),
  (0x329e, "5370 6ce8 9805 4f11 5199 6b63 4e0a 4e2d 4e0b 5de6 53f3 533b 5b97 5b66 76e3"),
  (0x32ad, "4f01 8cc7 5354 591c 33.36 33.37 33.38 33.39 34.30 34.31 34.32 34.33 34.34"),
  (0x32ba, "34.35 34.36 34.37 34.38 34.39 35.30 31.6708 32.6708 33.6708 34.6708 35.6708"),
  (0x32c5, "36.6708 37.6708 38.6708 39.6708 31.30.6708 31.31.6708 31.32.6708"),
  (0x32d0, "30a2 30a4 30a6 30a8 30aa*2 30ad 30af 30b1 30b3 30b5 30b7 30b9 30bb 30bd 30bf"),
  (0x32e0, "30c1 30c4 30c6 30c8 30ca*6 30d2 30d5 30d8 30db 30de*5 30e4 30e6 30e8*6 30ef*4"),
  (0x32ff, "= 30a2.30d1.30fc.30c8 30a2.30eb.30d5.30a1 30a2.30f3.30da.30a2 30a2.30fc.30eb"),
  (0x3304, "30a4.30cb.30f3.30b0 30a4.30f3.30c1 30a6.30a9.30f3 30a8.30b9.30af.30fc.30c9"),
  (0x3308, "30a8.30fc.30ab.30fc 30aa.30f3.30b9 30aa.30fc.30e0 30ab.30a4.30ea"),
  (0x330c, "30ab.30e9.30c3.30c8 30ab.30ed.30ea.30fc 30ac.30ed.30f3 30ac.30f3.30de"),
  (0x3310, "30ae.30ac 30ae.30cb.30fc 30ad.30e5.30ea.30fc 30ae.30eb.30c0.30fc 30ad.30ed"),
  (0x3315, "30ad.30ed.30b0.30e9.30e0 30ad.30ed.30e1.30fc.30c8.30eb"),
  (0x3317, "30ad.30ed.30ef.30c3.30c8 30b0.30e9.30e0 30b0.30e9.30e0.30c8.30f3"),
  (0x331a, "30af.30eb.30bc.30a4.30ed 30af.30ed.30fc.30cd 30b1.30fc.30b9 30b3.30eb.30ca"),
  (0x331e, "30b3.30fc.30dd 30b5.30a4.30af.30eb 30b5.30f3.30c1.30fc.30e0"),
  (0x3321, "30b7.30ea.30f3.30b0 30bb.30f3.30c1 30bb.30f3.30c8 30c0.30fc.30b9 30c7.30b7"),
  (0x3326, "30c9.30eb 30c8.30f3 30ca.30ce 30ce.30c3.30c8 30cf.30a4.30c4"),
  (0x332b, "30d1.30fc.30bb.30f3.30c8 30d1.30fc.30c4 30d0.30fc.30ec.30eb"),
  (0x332e, "30d4.30a2.30b9.30c8.30eb 30d4.30af.30eb 30d4.30b3 30d3.30eb"),
  (0x3332, "30d5.30a1.30e9.30c3.30c9 30d5.30a3.30fc.30c8 30d6.30c3.30b7.30a7.30eb"),
  (0x3335, "30d5.30e9.30f3 30d8.30af.30bf.30fc.30eb 30da.30bd 30da.30cb.30d2"),
  (0x3339, "30d8.30eb.30c4 30da.30f3.30b9 30da.30fc.30b8 30d9.30fc.30bf"),
  (0x333d, "30dd.30a4.30f3.30c8 30dc.30eb.30c8 30db.30f3 30dd.30f3.30c9 30db.30fc.30eb"),
  (0x3342, "30db.30fc.30f3 30de.30a4.30af.30ed 30de.30a4.30eb 30de.30c3.30cf"),
  (0x3346, "30de.30eb.30af 30de.30f3.30b7.30e7.30f3 30df.30af.30ed.30f3 30df.30ea"),
  (0x334a, "30df.30ea.30d0.30fc.30eb 30e1.30ac 30e1.30ac.30c8.30f3 30e1.30fc.30c8.30eb"),
  (0x334e, "30e4.30fc.30c9 30e4.30fc.30eb 30e6.30a2.30f3 30ea.30c3.30c8.30eb 30ea.30e9"),
  (0x3353, "30eb.30d4.30fc 30eb.30fc.30d6.30eb 30ec.30e0 30ec.30f3.30c8.30b2.30f3"),
  (0x3357, "30ef.30c3.30c8 30.70b9 31.70b9 32.70b9 33.70b9 34.70b9 35.70b9 36.70b9 37.70b9"),
  (0x3360, "38.70b9 39.70b9 31.30.70b9 31.31.70b9 31.32.70b9 31.33.70b9 31.34.70b9"),
  (0x3367, "31.35.70b9 31.36.70b9 31.37.70b9 31.38.70b9 31.39.70b9 32.30.70b9 32.31.70b9"),
  (0x336e, "32.32.70b9 32.33.70b9 32.34.70b9 68.70.61 64.61 61.75 62.61.72 6f.76 70.63"),
  (0x337b, "5e73.6210 662d.548c 5927.6b63 660e.6cbb 682a.5f0f.4f1a.793e 70.61 6e.61 3bc.61"),
  (0x3383, "6d.61 6b.61 6b.62 6d.62 67.62 63.61.6c 6b.63.61.6c 70.66 6e.66 3bc.66 3bc.67"),
  (0x338e, "6d.67 6b.67 68.7a 6b.68.7a 6d.68.7a 67.68.7a 74.68.7a 3bc.6c 6d.6c 64.6c 6b.6c"),
  (0x3399, "66.6d 6e.6d 3bc.6d 6d.6d 63.6d 6b.6d 6d.6d.32 63.6d.32 6d.32 6b.6d.32 6d.6d.33"),
  (0x33a4, "63.6d.33 6d.33 6b.6d.33 6d.2215.73 6d.2215.73.32 70.61 6b.70.61 6d.70.61"),
  (0x33ac, "67.70.61 72.61.64 72.61.64.2215.73 72.61.64.2215.73.32 70.73 6e.73 3bc.73"),
  (0x33b3, "6d.73 70.76 6e.76 3bc.76 6d.76 6b.76 6d.76 70.77 6e.77 3bc.77 6d.77 6b.77"),
  (0x33bf, "6d.77 6b.3c9 6d.3c9 61.2e.6d.2e 62.71 63.63 63.64 63.2215.6b.67 63.6f.2e 64.62"),
  (0x33c9, "67.79 68.61 68.70 69.6e 6b.6b 6b.6d 6b.74 6c.6d 6c.6e 6c.6f.67 6c.78 6d.62"),
  (0x33d5, "6d.69.6c 6d.6f.6c 70.68 70.2e.6d.2e 70.70.6d 70.72 73.72 73.76 77.62 = ="),
  (0x33e0, "31.65e5 32.65e5 33.65e5 34.65e5 35.65e5 36.65e5 37.65e5 38.65e5 39.65e5"),
  (0x33e9, "31.30.65e5 31.31.65e5 31.32.65e5 31.33.65e5 31.34.65e5 31.35.65e5 31.36.65e5"),
  (0x33f0, "31.37.65e5 31.38.65e5 31.39.65e5 32.30.65e5 32.31.65e5 32.32.65e5 32.33.65e5"),
  (0x33f7, "32.34.65e5 32.35.65e5 32.36.65e5 32.37.65e5 32.38.65e5 32.39.65e5 33.30.65e5"),
  (0x33fe, "33.31.65e5"), (0xa640, "a641/17"), (0xa680, "a681/e"),
  (0xa722, "a723/7 = = = a733/1f"), (0xa779, "a77a/2 = 1d79 a77f/5"),
  (0xa78b, "a78c = 265 = = a791/2 = = = a797/a = 266 25c 261 26c 26a = 29e 287 29d ab53"),
  (0xa7b4, "a7b5/8 = a794 282 1d8e a7c8/2"), (0xa7d0, "a7d1"), (0xa7d6, "a7d7/2"),
  (0xa7f5, "a7f6"),
  (0xf900, "8c48 66f4 8eca 8cc8 6ed1 4e32 53e5 9f9c 9f9c 5951 91d1 5587 5948 61f6 7669"),
  (0xf90f, "7f85 863f 87ba 88f8 908f 6a02 6d1b 70d9 73de 843d 916a 99f1 4e82 5375 6b04"),
  (0xf91e, "721b 862d 9e1e 5d50 6feb 85cd 8964 62c9 81d8 881f 5eca 6717 6d6a 72fc 90ce"),
  (0xf92d, "4f86 51b7 52de 64c4 6ad3 7210 76e7 8001 8606 865c 8def 9732 9b6f 9dfa 788c"),
  (0xf93c, "797f 7da0 83c9 9304 9e7f 8ad6 58df 5f04 7c60 807e 7262 78ca 8cc2 96f7 58d8"),
  (0xf94b, "5c62 6a13 6dda 6f0f 7d2f 7e37 964b 52d2 808b 51dc 51cc 7a1c 7dbe 83f1 9675"),
  (0xf95a, "8b80 62cf 6a02 8afe 4e39 5be7 6012 7387 7570 5317 78fb 4fbf 5fa9 4e0d 6ccc"),
  (0xf969, "6578 7d22 53c3 585e 7701 8449 8aaa 6bba 8fb0 6c88 62fe 82e5 63a0 7565 4eae"),
  (0xf978, "5169 51c9 6881 7ce7 826f 8ad2 91cf 52f5 5442 5973 5eec 65c5 6ffe 792a 95ad"),
  (0xf987, "9a6a 9e97 9ece 529b 66c6 6b77 8f62 5e74 6190 6200 649a 6f23 7149 7489 79ca"),
  (0xf996, "7df4 806f 8f26 84ee 9023 934a 5217 52a3 54bd 70c8 88c2 8aaa 5ec9 5ff5 637b"),
  (0xf9a5, "6bae 7c3e 7375 4ee4 56f9 5be7 5dba 601c 73b2 7469 7f9a 8046 9234 96f6 9748"),
  (0xf9b4, "9818 4f8b 79ae 91b4 96b8 60e1 4e86 50da 5bee 5c3f 6599 6a02 71ce 7642 84fc"),
  (0xf9c3, "907c 9f8d 6688 962e 5289 677b 67f3 6d41 6e9c 7409 7559 786b 7d10 985e 516d"),
  (0xf9d2, "622e 9678 502b 5d19 6dea 8f2a 5f8b 6144 6817 7387 9686 5229 540f 5c65 6613"),
  (0xf9e1, "674e 68a8 6ce5 7406 75e2 7f79 88cf 88e1 91cc 96e2 533f 6eba 541d 71d0 7498"),
  (0xf9f0, "85fa 96a3 9c57 9e9f 6797 6dcb 81e8 7acb 7b20 7c92 72c0 7099 8b58 4ec0 8336"),
  (0xf9ff, "523a 5207 5ea6 62d3 7cd6 5b85 6d1e 66b4 8f3b 884c 964d 898b 5ed3 5140 55c0 = ="),
  (0xfa10, "585a = 6674 = = 51de 732a 76ca 793c 795e 7965 798f 9756 7cbe 7fbd = 8612 ="),
  (0xfa22, "8af8 = = 9038 90fd = = = 98ef 98fc 9928 9db4 = = 4fae 50e7 514d 52c9 52e4 5351"),
  (0xfa36, "559d 5606 5668 5840 58a8 5c64 5c6e 6094 6168 618e 61f2 654f 65e2 6691 6885"),
  (0xfa45, "6d77 6e1a 6f22 716e 722b 7422 7891 793e 7949 7948 7950 7956 795d 798d*2 7a40"),
  (0xfa55, "7a81 7bc0 7df4 7e09 7e41 7f72 8005 81ed 8279 8279 8457 8910 8996 8b01 8b39"),
  (0xfa64, "8cd3 8d08 8fb6 9038 96e3 97ff 983b"),
  (0xfb00, "66.66 66.69 66.6c 66.66.69 66.66.6c 73.74 73.74"),
  (0xfb13, "574.576 574.565 574.56b 57e.576 574.56d"),
  (0xfb1d, "5d9.5b4 = 5f2.5b7 5e2 5d0 5d3*2 5db*3 5e8 5ea 2b 5e9.5c1 5e9.5c2 5e9.5bc.5c1"),
  (0xfb2d, "5e9.5bc.5c2 5d0.5b7 5d0.5b8 5d0.5bc 5d1.5bc 5d2.5bc 5d3.5bc 5d4.5bc 5d5.5bc"),
  (0xfb36, "5d6.5bc = 5d8.5bc 5d9.5bc 5da.5bc 5db.5bc 5dc.5bc = 5de.5bc = 5e0.5bc 5e1.5bc"),
  (0xfb42, "= 5e3.5bc 5e4.5bc = 5e6.5bc 5e7.5bc 5e8.5bc 5e9.5bc 5ea.5bc 5d5.5b9 5d1.5bf"),
  (0xfb4d, "5db.5bf 5e4.5bf 5d0.5dc 671 671 67b 67b 67b 67b 67e 67e 67e 67e 680 680 680"),
  (0xfb5d, "680 67a 67a 67a 67a 67f 67f 67f 67f 679 679 679 679 6a4 6a4 6a4 6a4 6a6 6a6"),
  (0xfb70, "6a6 6a6 684 684 684 684 683 683 683 683 686 686 686 686*2 687 687 687 68d 68d"),
  (0xfb84, "68c 68c 68e 68e 688 688 698 698 691 691 6a9 6a9 6a9 6a9 6af 6af 6af 6af 6b3"),
  (0xfb97, "6b3 6b3 6b3 6b1 6b1 6b1 6b1 6ba 6ba*2 6bb 6bb 6bb 6c0 6c0*2 6c1 6c1 6c1 6be"),
  (0xfbab, "6be 6be 6be 6d2 6d2*2 6d3"),
  (0xfbd3, "6ad 6ad 6ad 6ad 6c7 6c7 6c6 6c6 6c8 6c8 6c7.674 6cb 6cb 6c5 6c5 6c9 6c9 6d0"),
  (0xfbe5, "6d0 6d0 6d0 649 649 626.627 626.627 626.6d5 626.6d5 626.648 626.648 626.6c7"),
  (0xfbf1, "626.6c7 626.6c6 626.6c6 626.6c8 626.6c8 626.6d0 626.6d0 626.6d0 626.649"),
  (0xfbfa, "626.649 626.649 6cc 6cc 6cc 6cc 626.62c 626.62d 626.645 626.649 626.64a"),
  (0xfc05, "628.62c 628.62d 628.62e 628.645 628.649 628.64a 62a.62c 62a.62d 62a.62e"),
  (0xfc0e, "62a.645 62a.649 62a.64a 62b.62c 62b.645 62b.649 62b.64a 62c.62d 62c.645"),
  (0xfc17, "62d.62c 62d.645 62e.62c 62e.62d 62e.645 633.62c 633.62d 633.62e 633.645"),
  (0xfc20, "635.62d 635.645 636.62c 636.62d 636.62e 636.645 637.62d 637.645 638.645"),
  (0xfc29, "639.62c 639.645 63a.62c 63a.645 641.62c 641.62d 641.62e 641.645 641.649"),
  (0xfc32, "641.64a 642.62d 642.645 642.649 642.64a 643.627 643.62c 643.62d 643.62e"),
  (0xfc3b, "643.644 643.645 643.649 643.64a 644.62c 644.62d 644.62e 644.645 644.649"),
  (0xfc44, "644.64a 645.62c 645.62d 645.62e 645.645 645.649 645.64a 646.62c 646.62d"),
  (0xfc4d, "646.62e 646.645 646.649 646.64a 647.62c 647.645 647.649 647.64a 64a.62c"),
  (0xfc56, "64a.62d 64a.62e 64a.645 64a.649 64a.64a 630.670 631.670 649.670 20.64c.651"),
  (0xfc5f, "20.64d.651 20.64e.651 20.64f.651 20.650.651 20.651.670 626.631 626.632 626.645"),
  (0xfc67, "626.646 626.649 626.64a 628.631 628.632 628.645 628.646 628.649 628.64a"),
  (0xfc70, "62a.631 62a.632 62a.645 62a.646 62a.649 62a.64a 62b.631 62b.632 62b.645"),
  (0xfc79, "62b.646 62b.649 62b.64a 641.649 641.64a 642.649 642.64a 643.627 643.644"),
  (0xfc82, "643.645 643.649 643.64a 644.645 644.649 644.64a 645.627 645.645 646.631"),
  (0xfc8b, "646.632 646.645 646.646 646.649 646.64a 649.670 64a.631 64a.632 64a.645"),
  (0xfc94, "64a.646 64a.649 64a.64a 626.62c 626.62d 626.62e 626.645 626.647 628.62c"),
  (0xfc9d, "628.62d 628.62e 628.645 628.647 62a.62c 62a.62d 62a.62e 62a.645 62a.647"),
  (0xfca6, "62b.645 62c.62d 62c.645 62d.62c 62d.645 62e.62c 62e.645 633.62c 633.62d"),
  (0xfcaf, "633.62e 633.645 635.62d 635.62e 635.645 636.62c 636.62d 636.62e 636.645"),
  (0xfcb8, "637.62d 638.645 639.62c 639.645 63a.62c 63a.645 641.62c 641.62d 641.62e"),
  (0xfcc1, "641.645 642.62d 642.645 643.62c 643.62d 643.62e 643.644 643.645 644.62c"),
  (0xfcca, "644.62d 644.62e 644.645 644.647 645.62c 645.62d 645.62e 645.645 646.62c"),
  (0xfcd3, "646.62d 646.62e 646.645 646.647 647.62c 647.645 647.670 64a.62c 64a.62d"),
  (0xfcdc, "64a.62e 64a.645 64a.647 626.645 626.647 628.645 628.647 62a.645 62a.647"),
  (0xfce5, "62b.645 62b.647 633.645 633.647 634.645 634.647 643.644 643.645 644.645"),
  (0xfcee, "646.645 646.647 64a.645 64a.647 640.64e.651 640.64f.651 640.650.651 637.649"),
  (0xfcf6, "637.64a 639.649 639.64a 63a.649 63a.64a 633.649 633.64a 634.649 634.64a"),
  (0xfcff, "62d.649 62d.64a 62c.649 62c.64a 62e.649 62e.64a 635.649 635.64a 636.649"),
  (0xfd08, "636.64a 634.62c 634.62d 634.62e 634.645 634.631 633.631 635.631 636.631"),
  (0xfd11, "637.649 637.64a 639.649 639.64a 63a.649 63a.64a 633.649 633.64a 634.649"),
  (0xfd1a, "634.64a 62d.649 62d.64a 62c.649 62c.64a 62e.649 62e.64a 635.649 635.64a"),
  (0xfd23, "636.649 636.64a 634.62c 634.62d 634.62e 634.645 634.631 633.631 635.631"),
  (0xfd2c, "636.631 634.62c 634.62d 634.62e 634.645 633.647 634.647 637.645 633.62c"),
  (0xfd35, "633.62d 633.62e 634.62c 634.62d 634.62e 637.645 638.645 627.64b 627.64b"),
  (0xfd50, "62a.62c.645 62a.62d.62c 62a.62d.62c 62a.62d.645 62a.62e.645 62a.645.62c"),
  (0xfd56, "62a.645.62d 62a.645.62e 62c.645.62d 62c.645.62d 62d.645.64a 62d.645.649"),
  (0xfd5c, "633.62d.62c 633.62c.62d 633.62c.649 633.645.62d 633.645.62d 633.645.62c"),
  (0xfd62, "633.645.645 633.645.645 635.62d.62d 635.62d.62d 635.645.645 634.62d.645"),
  (0xfd68, "634.62d.645 634.62c.64a 634.645.62e 634.645.62e 634.645.645 634.645.645"),
  (0xfd6e, "636.62d.649 636.62e.645 636.62e.645 637.645.62d 637.645.62d 637.645.645"),
  (0xfd74, "637.645.64a 639.62c.645 639.645.645 639.645.645 639.645.649 63a.645.645"),
  (0xfd7a, "63a.645.64a 63a.645.649 641.62e.645 641.62e.645 642.645.62d 642.645.645"),
  (0xfd80, "644.62d.645 644.62d.64a 644.62d.649 644.62c.62c 644.62c.62c 644.62e.645"),
  (0xfd86, "644.62e.645 644.645.62d 644.645.62d 645.62d.62c 645.62d.645 645.62d.64a"),
  (0xfd8c, "645.62c.62d 645.62c.645 645.62e.62c 645.62e.645 = = 645.62c.62e 647.645.62c"),
  (0xfd94, "647.645.645 646.62d.645 646.62d.649 646.62c.645 646.62c.645 646.62c.649"),
  (0xfd9a, "646.645.64a 646.645.649 64a.645.645 64a.645.645 628.62e.64a 62a.62c.64a"),
  (0xfda0, "62a.62c.649 62a.62e.64a 62a.62e.649 62a.645.64a 62a.645.649 62c.645.64a"),
  (0xfda6, "62c.62d.649 62c.645.649 633.62e.649 635.62d.64a 634.62d.64a 636.62d.64a"),
  (0xfdac, "644.62c.64a 644.645.64a 64a.62d.64a 64a.62c.64a 64a.645.64a 645.645.64a"),
  (0xfdb2, "642.645.64a 646.62d.64a 642.645.62d 644.62d.645 639.645.64a 643.645.64a"),
  (0xfdb8, "646.62c.62d 645.62e.64a 644.62c.645 643.645.645 644.62c.645 646.62c.62d"),
  (0xfdbe, "62c.62d.64a 62d.62c.64a 645.62c.64a 641.645.64a 628.62d.64a 643.645.645"),
  (0xfdc4, "639.62c.645 635.645.645 633.62e.64a 646.62c.64a"),
  (0xfdf0, "635.644.6d2 642.644.6d2 627.644.644.647 627.643.628.631 645.62d.645.62f"),
  (0xfdf5, "635.644.639.645 631.633.648.644 639.644.64a.647 648.633.644.645 635.644.649"),
  (0xfdfa, "635.644.649.20.627.644.644.647.20.639.644.64a.647.20.648.633.644.645"),
  (0xfdfb, "62c.644.20.62c.644.627.644.647 631.6cc.627.644 = = = _*10"),
  (0xfe30, "2e.2e 2014 2013 5f 5f 28*2 7b 7d 3014*2 3010*2 300a*2 3008*2 300c*4"),
  (0xfe49, "20.305 20.305 20.305 20.305 5f 5f 5f 2c 3001 2e = 3b 3a 3f 21 2014 28*2 7b 7d"),
  (0xfe5d, "3014*2 23 26 2a*2 2d 3c 3e 3d = 5c 24*2 40"),
  (0xfe70, "20.64b 640.64b 20.64c = 20.64d = 20.64e 640.64e 20.64f 640.64f 20.650 640.650"),
  (0xfe7c, "20.651 640.651 20.652 640.652 621*2 622*2 623*2 624*2 625*2 626 626 626*2"),
  (0xfe8e, "627*2 628 628 628*2 629*2 62a 62a 62a*2 62b 62b 62b*2 62c 62c 62c*2 62d 62d"),
  (0xfea4, "62d*2 62e 62e 62e*2 62f*2 630*2 631*2 632*2 633 633 633*2 634 634 634*2 635"),
  (0xfebb, "635 635*2 636 636 636*2 637 637 637*2 638 638 638*2 639 639 639*2 63a 63a 63a"),
  (0xfed1, "641 641 641 641*2 642 642 642*2 643 643 643*2 644 644 644*2 645 645 645*2 646"),
  (0xfee7, "646 646*2 647 647 647*2 648*2 649*2 64a 64a 64a 644.622 644.622 644.623"),
  (0xfef8, "644.623 644.625 644.625 644.627 644.627 = = _ = 21*20 61*1a 5b*24 2985*2 3002"),
  (0xff62, "300c*2 3001 30fb 30f2 30a1 30a3 30a5 30a7 30a9 30e3 30e5 30e7 30c3 30fc 30a2"),
  (0xff72, "30a4 30a6 30a8 30aa*2 30ad 30af 30b1 30b3 30b5 30b7 30b9 30bb 30bd 30bf 30c1"),
  (0xff82, "30c4 30c6 30c8 30ca*6 30d2 30d5 30d8 30db 30de*5 30e4 30e6 30e8*6 30ef 30f3"),
  (0xff9e, "3099*2 1160 1100*2 11aa 1102 11ac*2 1103*3 11b0*6 111a 1106*3 1121 1109*a = ="),
  (0xffc1, "= 1161*6 = = 1167*6 = = 116d*6 = = 1173*3 = = = a2*2 ac 20.304 a6 a5 20a9 ="),
  (0xffe8, "2502 2190*4 25a0 25cb"), (0x10400, "10428*28"), (0x104b0, "104d8*24"),
  (0x10570, "10597*b = 105a3*f = 105b3*7 = 105bb*2"), (0x10c80, "10cc0*33"),
  (0x118a0, "118c0*20"), (0x16e40, "16e60*20"),
  (0x1d15e, "1d157.1d165 1d158.1d165 1d158.1d165.1d16e 1d158.1d165.1d16f 1d158.1d165.1d170"),
  (0x1d163, "1d158.1d165.1d171 1d158.1d165.1d172"),
  (0x1d1bb, "1d1b9.1d165 1d1ba.1d165 1d1b9.1d165.1d16e 1d1ba.1d165.1d16e 1d1b9.1d165.1d16f"),
  (0x1d1c0, "1d1ba.1d165.1d16f"),
  (0x1d400, "61*1a 61*1a 61*1a 61*7 = 69*12 61*1a 61*1a 61/2 64 = = 67 = = 6a*2 = = 6e*4 ="),
  (0x1d4ae, "73*8 61*4 = 66/2 69*3 = 6d*2 = 70*b 61*1a 61*1a 61*2 = 64*4 = = 6a*8 = 73*7 ="),
  (0x1d51e, "61*1a 61*2 = 64*4 = 69*5 = 6f = = = 73*7 = 61*1a 61*1a 61*1a 61*1a 61*1a 61*1a"),
  (0x1d5ee, "61*1a 61*1a 61*1a 61*1a 61*1a 61*1a 61*1a"),
  (0x1d6a8, "3b1*11 3b8 3c3*7 2207 3b1*11 3c3 3c3*7 2202 3b5 3b8 3ba 3c6 3c1 3c0 3b1*11 3b8"),
  (0x1d6f4, "3c3*7 2207 3b1*11 3c3 3c3*7 2202 3b5 3b8 3ba 3c6 3c1 3c0 3b1*11 3b8 3c3*7 2207"),
  (0x1d736, "3b1*11 3c3 3c3*7 2202 3b5 3b8 3ba 3c6 3c1 3c0 3b1*11 3b8 3c3*7 2207 3b1*11 3c3"),
  (0x1d782, "3c3*7 2202 3b5 3b8 3ba 3c6 3c1 3c0 3b1*11 3b8 3c3*7 2207 3b1*11 3c3 3c3*7 2202"),
  (0x1d7c4, "3b5 3b8 3ba 3c6 3c1 3c0"), (0x1d7ce, "30*a 30*a 30*a 30*a 30*a"),
  (0x1e900, "1e922*22"),
  (0x2f800, "4e3d 4e38 4e41 20122 4f60 4fae 4fbb 5002 507a 5099 50e7 50cf 349e 2063a 514d"),
  (0x2f80f, "5154 5164 5177 2051c 34b9 5167 518d 2054b 5197 51a4 4ecc 51ac 51b5 291df 51f5"),
  (0x2f81e, "5203 34df 523b 5246 5272 5277 3515 52c7 52c9 52e4 52fa 5305*2 5317 5349 5351"),
  (0x2f82e, "535a 5373 537d 537f 537f 537f 20a2c 7070 53ca 53df 20b63 53eb 53f1 5406 549e"),
  (0x2f83d, "5438 5448 5468 54a2 54f6 5510 5553 5563 5584 5584 5599 55ab 55b3 55c2 5716"),
  (0x2f84c, "5606 5717 5651 5674 5207 58ee 57ce 57f4 580d 578b 5832 5831 58ac 214e4 58f2"),
  (0x2f85b, "58f7 5906 591a 5922 5962 216a8 216ea 59ec 5a1b 5a27 59d8 5a66 36ee 2136a 5b08"),
  (0x2f86a, "5b3e 5b3e 219c8 5bc3 5bd8 5be7 5bf3 21b18 5bff 5c06 5f33 5c22 3781 5c60 5c6e"),
  (0x2f879, "5cc0 5c8d 21de4 5d43 21de6 5d6e 5d6b 5d7c 5de1*2 382f 5dfd 5e28 5e3d 5e69 3862"),
  (0x2f889, "22183 387c 5eb0 5eb3 5eb6 5eca 2a392 5efe 22331 22331 8201 5f22 5f22 38c7"),
  (0x2f897, "232b8 261da 5f62 5f6b 38e3 5f9a 5fcd 5fd7 5ff9 6081 393a 391c 6094 226d4 60c7"),
  (0x2f8a6, "6148 614c 614e 614c 617a 618e 61b2 61a4 61af 61de 61f2 61f6 6210 621b 625d"),
  (0x2f8b5, "62b1 62d4 6350 22b0c 633d 62fc 6368 6383 63e4 22bf1 6422 63c5 63a9 3a2e 6469"),
  (0x2f8c4, "647e 649d 6477 3a6c 654f 656c 2300a 65e3 66f8 6649 3b19 6691 3b08 3ae4 5192"),
  (0x2f8d3, "5195 6700 669c 80ad 43d9 6717 671b 6721 675e 6753 233c3 3b49 67fa 6785 6852"),
  (0x2f8e2, "6885 2346d 688e 681f 6914 3b9d 6942 69a3 69ea 6aa8 236a3 6adb 3c18 6b21 238a7"),
  (0x2f8f1, "6b54 3c4e 6b72 6b9f 6bba*2 23a8d 21d0b 23afa 6c4e 23cbc 6cbf 6ccd 6c67 6d16"),
  (0x2f900, "6d3e 6d77 6d41 6d69 6d78 6d85 23d1e 6d34 6e2f 6e6e 3d33 6ecb 6ec7 23ed1 6df9"),
  (0x2f90f, "6f6e 23f5e 23f8e 6fc6 7039 701e 701b 3d96 704a 707d 7077 70ad 20525 7145 24263"),
  (0x2f91e, "719c 43ab 7228 7235 7250 24608 7280 7295 24735 24814 737a 738b 3eac 73a5 3eb8"),
  (0x2f92d, "3eb8 7447 745c 7471 7485 74ca 3f1b 7524 24c36 753e 24c92 7570 2219f 7610 24fa1"),
  (0x2f93c, "24fb8 25044 3ffc 4008 76f4 250f3 250f2 25119 25133 771e*2 771f 774a 4039 778b"),
  (0x2f94b, "4046 4096 2541d 784e 788c 78cc 40e3 25626 7956 2569a 256c5 798f 79eb 412f 7a40"),
  (0x2f95a, "7a4a 7a4f 2597c 25aa7 25aa7 7aae 4202 25bab 7bc6 7bc9 4227 25c80 7cd2 42a0"),
  (0x2f968, "7ce8 7ce3 7d00 25f86 7d63 4301 7dc7 7e02 7e45 4334 26228 26247 4359 262d9 7f7a"),
  (0x2f977, "2633e 7f95 7ffa 8005 264da 26523 8060 265a8 8070 2335f 43d5 80b2 8103 440b"),
  (0x2f985, "813e 5ab5 267a7 267b5 23393 2339c 8201 8204 8f9e 446b 8291 828b 829d 52b3 82b1"),
  (0x2f994, "82b3 82bd 82e6 26b3c 82e5 831d 8363 83ad 8323 83bd 83e7 8457 8353 83ca 83cc"),
  (0x2f9a3, "83dc 26c36 26d6b 26cd5 452b 84f1 84f3 8516 273ca 8564 26f2c 455d 4561 26fb1"),
  (0x2f9b1, "270d2 456b 8650 865c 8667 8669 86a9 8688 870e 86e2 8779 8728 876b 8786 4d57"),
  (0x2f9c0, "87e1 8801 45f9 8860 8863 27667 88d7 88de 4635 88fa 34bb 278ae 27966 46be 46c7"),
  (0x2f9cf, "8aa0 8aed 8b8a 8c55 27ca8 8cab 8cc1 8d1b 8d77 27f2f 20804 8dcb 8dbc 8df0 208de"),
  (0x2f9de, "8ed4 8f38 285d2 285ed 9094 90f1 9111 2872e 911b 9238 92d7*2 927c 93f9 9415"),
  (0x2f9ed, "28bfa 958b 4995 95b7 28d77 49e6 96c3 5db2 9723 29145 2921a 4a6e 4a76 97e0"),
  (0x2f9fb, "2940a 4ab2 29496 980b 980b 9829 295b6 98e2 4b33 9929 99a7 99c2 99fe 4bce 29b30"),
  (0x2fa0a, "9b12 9c40 9cfd 4cce 4ced 9d67 2a0ce 4cf8 2a105 2a20e 2a291 9ebb 4d56 9ef9 9efe"),
  (0x2fa19, "9f05 9f0f 9f16 9f3b 2a600")]

end FeedbackQueue.Client.Folding
