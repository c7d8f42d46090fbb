import CodeMarkup.Text.Category

/-! # Ages

The edition of the Unicode character database in which a code point was assigned. -/

namespace CodeMarkup.Text

namespace Age

/-- The editions in which code points were assigned, in order. -/
def editions : List String :=
  ["1.1", "2.0", "2.1", "3.0", "3.1", "3.2", "4.0", "4.1", "5.0", "5.1", "5.2", "6.0", "6.1",
    "6.2", "6.3", "7.0", "8.0", "9.0", "10.0", "11.0", "12.0", "12.1", "13.0", "14.0", "15.0",
    "15.1", "16.0"]

/-- The editions of all code points, after the letter `v`; a code point that has not been assigned
goes with those before it. -/
def written : String :=
  "1f6v1.1 4v3.0 1ev1.1 8v3.0 1v3.2 1v4.0 12v3.0 3v4.0 bv4.1 ev5.0 59v1.1 5v3.0 2v4.0 2fv1.1 " ++
  "1v3.0 av1.1 5v3.0 11v4.0 46v1.1 9v3.0 1v3.2 8v4.0 5v4.1 3v4.0 2v1.1 1v3.0 dv3.2 4v5.1 " ++
  "2v1.1 4v5.1 1v1.1 3v5.0 1v1.1 5v7.0 4bv1.1 1v5.1 7v1.1 1v3.0 2v3.2 1v1.1 1v3.0 1v1.1 " ++
  "1v3.0 1v1.1 1v3.0 1v1.1 1v3.0 12v1.1 2v3.1 1v3.2 5v4.0 4v4.1 1v3.0 cv1.1 1v3.0 42v1.1 " ++
  "1v3.0 cv1.1 1v3.0 29v1.1 1v5.1 2v3.0 2v3.2 4v3.0 35v1.1 2v3.2 2v1.1 2v3.2 2v1.1 2v3.2 " ++
  "1v5.0 1cv1.1 2v3.0 8v1.1 2v4.1 2v1.1 6v5.0 10v3.2 4v5.0 10v5.1 2v5.2 2v6.0 9v7.0 2fv1.1 " ++
  "1v11.0 27v1.1 1v11.0 1v1.1 3v3.0 2v7.0 2v6.1 11v2.0 1v4.1 dv2.0 av1.1 1v5.0 9v1.1 1v2.0 " ++
  "bv4.1 1fv1.1 1v11.0 10v1.1 4v4.0 1v6.1 1v7.0 5v5.1 1v4.1 1v1.1 9v4.0 5v5.1 1v1.1 1v6.3 " ++
  "1v14.0 1v4.1 1v1.1 1v6.0 1av1.1 5v5.1 13v1.1 3v3.0 3v4.0 6v4.1 1v6.0 ev1.1 2v3.2 48v1.1 " ++
  "2v3.0 5v1.1 1v3.0 fv1.1 1v3.0 1ev1.1 2v4.0 av1.1 5v3.0 1v4.0 2dv3.0 3v4.0 1dv3.0 3v4.0 " ++
  "1ev4.1 12v5.1 31v3.0 fv3.2 3dv5.0 3v11.0 40v5.2 20v6.0 10v10.0 27v14.0 1v16.0 8v14.0 " ++
  "1v6.1 1v7.0 bv6.1 6v7.0 2v8.0 1v14.0 8v9.0 av13.0 bv14.0 1v11.0 fv9.0 1v8.0 1bv6.1 1v7.0 " ++
  "1v5.2 3v1.1 1v4.0 35v1.1 2v6.0 12v1.1 1v5.2 1v6.0 5v1.1 1v5.2 2v6.0 19v1.1 2v5.1 5v6.0 " ++
  "1v7.0 2v5.2 2v5.0 1v4.1 2v5.0 1v7.0 3cv1.1 1v4.0 10v1.1 9v4.1 24v1.1 1v5.2 2v10.0 3v11.0 " ++
  "1v4.0 1v1.1 2v4.0 4cv1.1 8v5.1 1cv1.1 1v5.1 bv11.0 bv1.1 1v4.0 54v1.1 5v4.0 av1.1 1v6.1 " ++
  "8v4.0 1v8.0 7v10.0 34v1.1 1v4.0 ev1.1 3v5.1 ev1.1 1v13.0 cv1.1 4v5.1 bv1.1 1v4.0 10v6.0 " ++
  "34v1.1 1v4.1 19v1.1 7v5.1 fv1.1 1v4.1 cv1.1 dv4.0 1v7.0 3v1.1 1v11.0 2fv1.1 1v7.0 7v1.1 " ++
  "1v14.0 1v5.1 1av1.1 2v5.1 3v8.0 3v14.0 2v1.1 4v5.1 11v1.1 1v12.0 8v5.1 1v9.0 1v7.0 2v1.1 " ++
  "1v11.0 37v1.1 2v4.0 1fv1.1 1v14.0 4v1.1 4v5.0 bv1.1 2v5.0 dv15.0 1v10.0 1v7.0 2v1.1 " ++
  "1v13.0 24v1.1 1v6.0 10v1.1 1v6.0 2v10.0 1v5.1 6v1.1 2v5.1 8v1.1 1v6.0 8v9.0 1v1.1 7v9.0 " ++
  "1v8.0 2v1.1 4v5.1 av1.1 6v5.1 3v9.0 8v5.1 1v13.0 64v3.0 cv7.0 fv3.0 85v1.1 1v12.0 2v1.1 " ++
  "1v12.0 2v1.1 1v12.0 1v1.1 6v12.0 4v1.1 1v12.0 7v1.1 1v12.0 7v1.1 2v12.0 2v1.1 1v12.0 " ++
  "dv1.1 1v12.0 13v1.1 2v15.0 ev1.1 22v6.1 6av2.0 1v3.0 6v5.1 1bv2.0 4v6.0 6v2.0 1v3.0 " ++
  "17v2.0 3v3.0 7v2.0 1v3.0 1v2.0 14v3.0 1v5.1 1v3.0 2v4.1 3v5.1 4v5.2 27v6.0 22v3.0 1v5.1 " ++
  "5v3.0 1v5.1 2v3.0 1v5.1 7v3.0 3v5.1 4v3.0 6v5.1 1av3.0 40v5.1 4v5.2 2v5.1 27v1.1 9v6.1 " ++
  "27v1.1 2v3.2 2v4.1 1v1.1 1v4.1 3v6.1 5av1.1 5v5.2 44v1.1 5v5.2 52v1.1 6v5.2 7v3.0 1v4.1 " ++
  "3fv3.0 1v4.1 3fv3.0 1v4.1 27v3.0 1v4.1 1fv3.0 1v4.1 1fv3.0 1v4.1 1fv3.0 1v4.1 fv3.0 1v4.1 " ++
  "27v3.0 1v4.1 15v3.0 2v6.0 2v4.1 1fv3.0 20v4.1 55v3.0 bv8.0 1v5.2 276v3.0 9v5.2 71v3.0 " ++
  "fv7.0 dv3.2 1v14.0 7v3.2 bv14.0 60v3.2 5dv3.0 3v4.0 10v3.0 10v4.0 fv3.0 1v14.0 68v3.0 " ++
  "8v11.0 2av3.0 6v5.1 50v5.2 1dv4.0 3v7.0 60v4.0 2av4.1 6v5.2 2av4.1 4v5.2 2v4.1 20v4.0 " ++
  "20v4.1 90v5.2 fv7.0 2v13.0 3fv14.0 4cv5.0 2v14.0 2v16.0 2dv5.0 2v14.0 1v16.0 2bv5.1 3v6.1 " ++
  "cv5.1 6v6.1 40v6.0 80v5.1 9v9.0 7v16.0 30v11.0 10v6.1 23v5.2 4v6.1 1v10.0 2v7.0 6v12.0 " ++
  "6cv4.0 58v4.1 7v5.0 1cv5.1 fv7.0 4v10.0 1v14.0 1v9.0 1v6.0 1v5.2 2v5.0 9bv1.1 1v2.0 4v5.1 " ++
  "5av1.1 6v5.1 12fv1.1 1v3.0 17v1.1 1v3.2 6v3.0 5v3.2 2v4.0 2v4.1 1v3.2 7v4.1 5v3.2 2v5.1 " ++
  "4v6.3 7v1.1 3v3.2 1cv1.1 5v4.1 bv6.0 bv1.1 1v2.0 1v2.1 3v3.0 2v3.2 4v4.1 3v5.2 1v6.0 " ++
  "1v6.2 3v7.0 1v8.0 1v10.0 10v14.0 12v1.1 2v3.0 7v3.2 1v4.1 4v5.0 10v5.1 39v1.1 2v3.0 1v4.0 " ++
  "1v4.1 fv3.2 1v4.1 2v5.0 1v5.1 3v5.2 30v1.1 1v3.0 1v5.0 4v5.1 1v5.2 6v8.0 5bv1.1 9v3.0 " ++
  "cv3.2 f2v1.1 ev3.2 1v1.1 1v3.0 79v1.1 1v3.0 1v3.2 1ev3.0 34v3.2 2v4.0 bv4.1 cv5.0 1v5.2 " ++
  "bv6.0 7v7.0 4v9.0 1v10.0 25v1.1 2v3.0 19v16.0 abv1.1 14v3.2 1v4.0 96v1.1 av3.2 50v1.1 " ++
  "8v3.0 8v3.2 14v1.1 2v4.0 2v3.2 1v4.1 1v3.0 56v1.1 2v3.0 cv3.2 2v4.1 av3.2 8v4.0 bv4.1 " ++
  "1v5.1 2v5.2 2v4.0 10v4.1 1v5.0 av5.1 3v5.2 4v5.1 av5.2 1v6.0 13v5.2 1v6.0 1v5.2 4v6.0 " ++
  "18v5.2 1v7.0 4v1.1 1v6.0 4v1.1 2v6.0 1cv1.1 1v6.0 23v1.1 1v6.0 1v1.1 1v6.0 4v1.1 3v6.0 " ++
  "1v1.1 1v5.2 7v1.1 2v6.0 7v1.1 ev3.2 1fv1.1 3v6.0 18v1.1 1v6.0 ev1.1 1v6.0 7v4.1 4v5.0 " ++
  "1v6.1 1v5.1 1v6.1 2v6.0 1cv3.2 4v5.1 10v3.2 100v3.0 200v3.2 ev4.0 6v4.1 7v5.0 5v5.1 4v5.0 " ++
  "29v5.1 3v7.0 5v5.1 5v5.2 3dv7.0 1v13.0 22v7.0 3v11.0 cv7.0 1v12.0 8v7.0 1v10.0 19v11.0 " ++
  "4v8.0 fv11.0 1v12.0 2fv4.1 1v14.0 2fv4.1 1v14.0 dv5.0 3v5.1 1v5.2 3v5.1 4v5.0 6v5.1 2v5.2 " ++
  "6bv4.1 7v5.2 7v6.1 2ev4.1 9v6.1 36v4.1 9v6.1 1v4.1 10v6.0 60v4.1 20v5.1 18v4.1 4v5.1 " ++
  "2v4.1 13v5.1 1v5.2 av6.1 7v7.0 2v9.0 5v10.0 5v11.0 1v12.0 3v13.0 2dv14.0 17cv3.0 4v15.1 " ++
  "38v1.1 3v3.0 3v3.2 1v3.0 56v1.1 4v3.2 6v1.1 2v3.2 5ev1.1 6v3.2 28v1.1 1v5.1 1v10.0 2v11.0 " ++
  "6fv1.1 18v3.0 3v6.0 5v13.0 10v4.1 14v5.1 bv16.0 1v15.1 10v3.2 1dv1.1 3v4.0 24v1.1 cv5.2 " ++
  "1v4.0 fv3.2 1cv1.1 2v4.0 1v4.1 32v1.1 fv3.2 cv1.1 4v4.0 2fv1.1 1v12.1 77v1.1 4v4.0 63v1.1 " ++
  "2v4.0 1fv1.1 1v4.0 19b6v3.0 av13.0 40v4.0 51a6v1.1 16v4.1 8v5.1 8v5.2 1v6.1 9v8.0 15v10.0 " ++
  "5v11.0 dv13.0 3v14.0 4a2v3.0 2v3.2 10v3.0 1v3.2 cv3.0 1v3.2 3v3.0 1v3.2 av3.0 30v5.2 " ++
  "160v5.1 2v6.0 12v5.1 8v6.1 1cv5.1 6v7.0 1v8.0 1v6.1 60v5.2 17v4.1 4v5.0 5v5.1 2v5.0 " ++
  "6bv5.1 2v6.0 1v8.0 2v6.0 2v6.1 cv7.0 av6.0 1v6.1 3v7.0 1v9.0 1v11.0 2v7.0 6v8.0 2v11.0 " ++
  "6v12.0 2v14.0 5v12.0 4v13.0 5v16.0 av14.0 18v16.0 3v14.0 2v13.0 1v7.0 2v6.1 1v6.0 5v5.1 " ++
  "2cv4.1 4v13.0 10v5.2 40v5.0 45v5.1 9v9.0 12v5.1 1cv5.2 2v8.0 2v11.0 60v5.1 80v5.2 20v7.0 " ++
  "60v5.1 1cv5.2 4v7.0 60v5.2 21v6.1 2fv6.0 30v7.0 4v8.0 2v7.0 2v12.0 8v13.0 50v8.0 40v5.2 " ++
  "2bb0v2.0 50v5.2 800v2.0 1a2ev1.1 2v6.1 3bv3.2 5v5.2 90v4.1 1dv1.1 1v3.0 94v1.1 10v6.0 " ++
  "11v14.0 16dv1.1 10v14.0 7fv1.1 1v14.0 20v3.1 cv1.1 1v3.2 1v4.0 2v14.0 10v3.2 10v4.1 4v1.1 " ++
  "3v5.1 7v7.0 2v8.0 15v1.1 2v3.2 2v4.0 2av1.1 1v3.2 ebv1.1 2v3.2 98v1.1 3v3.0 1v2.1 3v1.1 " ++
  "140v4.0 4bv4.1 2v7.0 3v9.0 cv5.1 4v13.0 30v7.0 110v5.1 20v7.0 1fv3.1 1v7.0 dv3.1 3v10.0 " ++
  "20v3.1 30v7.0 20v4.0 60v4.1 26v3.1 2v4.0 26v3.1 62v4.0 50v9.0 70v7.0 50v14.0 40v16.0 " ++
  "180v7.0 80v14.0 40v4.0 20v5.2 80v7.0 20v8.0 1av5.0 5v5.2 1v5.0 60v5.1 3cv6.1 2v8.0 2v6.1 " ++
  "40v8.0 34v4.1 4v11.0 10v4.1 8v11.0 10v4.1 20v5.2 80v7.0 80v5.2 80v7.0 80v5.2 80v8.0 " ++
  "40v11.0 120v16.0 20v5.2 42v13.0 3bv16.0 3v15.0 70v11.0 40v14.0 30v13.0 20v12.0 70v6.0 " ++
  "fv14.0 1v7.0 42v5.2 bv14.0 3v11.0 74v6.1 3v11.0 9v13.0 30v7.0 49v6.1 4v8.0 1v7.0 2v13.0 " ++
  "av6.1 1v7.0 6v8.0 5dv7.0 1v9.0 41v15.0 30v8.0 50v7.0 1v8.0 3av7.0 1v11.0 14v7.0 7v8.0 " ++
  "29v7.0 80v16.0 5av9.0 1v13.0 3v9.0 1v11.0 1v12.0 20v13.0 14av7.0 36v8.0 60v7.0 20v9.0 " ++
  "38v6.1 1v12.0 7v14.0 10v6.1 30v16.0 1av8.0 3v11.0 23v8.0 c0v14.0 a0v11.0 60v7.0 a0v13.0 " ++
  "60v12.0 84v10.0 2v12.0 17v10.0 1v11.0 12v10.0 10v14.0 40v7.0 c0v15.0 40v16.0 100v9.0 " ++
  "60v10.0 1a0v11.0 5av15.0 56v16.0 10v13.0 40v12.0 36fv5.0 2av7.0 67v8.0 63v5.0 dv7.0 4v5.0 " ++
  "cv7.0 b10v8.0 70v14.0 42fv5.2 1v15.0 9v12.0 27v15.0 fa0v16.0 1d00v8.0 700v16.0 240v6.0 " ++
  "30v7.0 60v14.0 270v7.0 100v16.0 c0v11.0 45v6.1 bv12.0 2fv6.1 10v12.0 51v6.1 1v9.0 1v10.0 " ++
  "2v12.0 1cv13.0 17edv9.0 5v11.0 ev12.0 2f3v9.0 20cv13.0 1v16.0 22f0v13.0 10v14.0 2v6.0 " ++
  "11dv10.0 13v14.0 1ev15.0 5v12.0 fv15.0 cv12.0 a90v10.0 1000v7.0 300v16.0 100v14.0 129v3.1 " ++
  "1v5.1 b4v3.1 bv8.0 17v14.0 c0v4.1 20v15.0 20v11.0 60v4.0 12v5.0 8ev11.0 c1v3.1 1v4.0 " ++
  "1e2v3.1 4v4.1 122v3.1 4v5.0 32v3.1 700v8.0 25v14.0 dbv15.0 30v9.0 d0v15.0 190v12.0 " ++
  "30v14.0 210v12.0 100v15.0 210v16.0 20v14.0 100v7.0 4bv9.0 5v12.0 321v9.0 90v11.0 ffv12.0 " ++
  "200v6.1 a0v5.1 1fv6.0 2v7.0 1fv6.0 20v7.0 bv5.2 2v7.0 3v13.0 1fv5.2 1v11.0 1v6.0 1v5.2 " ++
  "bv6.0 1v5.2 1v6.0 1v5.2 2v6.0 1v5.2 3v6.0 1v5.2 3v6.0 5v5.2 8v6.0 1v5.2 7v6.0 1v5.2 av6.0 " ++
  "2v6.1 1v12.0 3v13.0 9v6.0 1v5.2 1v6.0 2v5.2 2v6.0 1v5.2 av6.0 4v5.2 2v6.0 1v5.2 av6.0 " ++
  "12v9.0 39v13.0 1av6.0 1v5.2 fv6.0 22v5.2 9v6.0 5v9.0 10v5.2 10v6.0 a0v10.0 21v6.0 cv7.0 " ++
  "3v8.0 6v6.0 1v7.0 46v6.0 1v7.0 2v8.0 14v6.0 cv7.0 25v6.0 1v7.0 5v6.0 4v7.0 5v8.0 cv7.0 " ++
  "11v6.0 7v7.0 8v8.0 3fv6.0 1v7.0 1v6.0 1v7.0 b6v6.0 1v7.0 4v6.0 2v7.0 1v8.0 3ev6.0 2v7.0 " ++
  "4v6.1 7v7.0 5v8.0 18v6.0 12v7.0 1v9.0 29v7.0 1v9.0 56v7.0 5v6.0 1v6.1 10v6.0 1v6.1 3v6.0 " ++
  "1v6.1 1v6.0 1v6.1 1v6.0 1v6.1 1v6.0 1v6.1 3v6.0 1v6.1 6v6.0 2v6.1 4v6.0 1v6.1 1v6.0 2v6.1 " ++
  "4v6.0 1v6.1 cv6.0 2v7.0 2v8.0 bv6.0 30v7.0 46v6.0 av7.0 1v8.0 2v9.0 2v10.0 1v12.0 6v13.0 " ++
  "1v15.0 3v14.0 14v7.0 3v9.0 2v10.0 1v11.0 1v12.0 5v13.0 74v6.0 cv15.0 55v7.0 4v11.0 7v15.0 " ++
  "10v12.0 10v14.0 b0v7.0 2v13.0 4ev16.0 cv10.0 1v13.0 3v12.0 9v8.0 6v9.0 1v10.0 8v9.0 " ++
  "8v10.0 1v9.0 2v10.0 cv9.0 1v12.0 cv9.0 1v10.0 3v11.0 fv9.0 dv10.0 5v11.0 1v12.0 1v13.0 " ++
  "4v11.0 2v13.0 1v14.0 1v11.0 1v12.0 4v11.0 5v8.0 dv9.0 6v10.0 bv11.0 2v13.0 6v12.0 3v13.0 " ++
  "2v12.0 av11.0 6v12.0 1v8.0 2v11.0 8v12.0 1v13.0 1v14.0 3v12.0 17v10.0 19v11.0 60v12.0 " ++
  "10v11.0 4v12.0 1v13.0 3v15.0 3v12.0 5v14.0 3v12.0 4v13.0 2v15.0 7v16.0 6v12.0 13v13.0 " ++
  "4v14.0 3v15.0 7v13.0 4v14.0 3v15.0 1v16.0 1v15.0 3v13.0 3v14.0 8v16.0 2v15.0 7v13.0 " ++
  "3v14.0 2v15.0 4v16.0 8v14.0 1v15.0 7v16.0 7v14.0 9v15.0 cbv13.0 25v16.0 40ev13.0 2v2.0 " ++
  "a6d7v3.1 7v13.0 22v14.0 1035v5.2 4v14.0 7v15.0 e0v6.0 1690v8.0 1d40v10.0 c10v15.1 7fev3.1 " ++
  "2v2.0 1350v13.0 ecaev15.0 a0003v2.0 ffv3.1 fefev4.0 20002v2.0 "

/-- The table of `written`. -/
def table : RangeTable String := RangeTable.read (fun code => String.ofList (code.drop 1)) written

end Age

/-- The code points that will never be characters. -/
def nonCharacters : CharSet :=
  CharSet.unions (.range 0xfdd0 0xfdef :: (List.range 17).map fun plane =>
    .range (0x10000 * plane + 0xfffe) (0x10000 * plane + 0xffff))

/-- The code points assigned up to an edition, if there is such an edition. -/
def assignedBy? (edition : String) : Option CharSet :=
  if Age.editions.contains edition then
    let later := (Age.editions.dropWhile (· ≠ edition)).drop 1
    let unassigned := (ofCategories [.unassigned]).diff nonCharacters
    some ((Age.table.setWhere fun e => !later.contains e).diff unassigned)
  else none

end CodeMarkup.Text
